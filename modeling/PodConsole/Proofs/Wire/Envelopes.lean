import PodConsole.Proofs.Json.Reading
import PodConsole.Proofs.Json.Writing
import PodConsole.Proofs.Wire.Members

namespace PodConsole.Proofs.Envelopes
open Json Wire Grammar JsonReading JsonWriting EnvelopeMembers

/-- A value that does not stand for an absent one. -/
def isTold : Value → Bool
  | .null => false
  | _ => true

/-- No field is bound twice. -/
def Once (members : Members) : Prop :=
  ∀ field ∈ known, (valuesOf field members).length ≤ 1

/-- The fields are bound to the same values, but for nulls. -/
def SameTold (members members' : Members) : Prop :=
  ∀ field ∈ known, (valuesOf field members).filter isTold = (valuesOf field members').filter isTold

variable {text : String} {members members' : Members} {e : Envelope}

theorem read_iff (h : WritesObject text.toList members) :
    Envelope.read text = .ok e ↔ Named members ∧ Fits members e := by
  obtain ⟨hv, hw, ht⟩ := read_object_iff.mp h
  rw [Envelope.read, hv, bind_ok_iff]
  simp only [ht, Bool.false_eq_true, if_false, object_iff, Except.ok.injEq]
  constructor
  · rintro ⟨e', ⟨-, hn, hf⟩, rfl⟩
    exact ⟨hn, hf⟩
  · rintro ⟨hn, hf⟩
    exact ⟨e, ⟨hw, hn, hf⟩, rfl⟩

theorem value_of_read (h : Envelope.read text = .ok e) :
    Envelope.ofValue (Json.read text).value = .ok e ∧ (Json.read text).trailing = false := by
  rw [Envelope.read, bind_ok_iff] at h
  obtain ⟨e', hv, ht⟩ := h
  split at ht
  · cases ht
  · rename_i hf
    cases ht
    exact ⟨hv, by simpa using hf⟩

/-- A text that begins like an object is read as an object, if at all. -/
theorem read_brace {b r : List Char} (hb : Blanks b) (ht : text.toList = b ++ '\x7b' :: r) :
    (∃ members, (Json.read text).value = .object members) := by
  have hskip : skipSpace text.toList = '\x7b' :: r := by
    rw [ht]
    exact skip_blanks hb (by simp [isSpace])
  have hv : (Json.read text).value = (readValue (text.toList.length + 1) text.toList).1 := rfl
  rw [hv, readValue, hskip]
  simp only
  split
  · exact ⟨_, rfl⟩
  · exact ⟨_, rfl⟩

theorem object_of_read {b r : List Char} (hb : Blanks b) (ht : text.toList = b ++ '\x7b' :: r)
    (h : Envelope.read text = .ok e) : ∃ members, WritesObject text.toList members := by
  obtain ⟨hv, htrailing⟩ := value_of_read h
  obtain ⟨members, hm⟩ := read_brace hb ht
  rw [hm, object_iff] at hv
  exact ⟨members, read_object_iff.mpr ⟨hm, hv.1, htrailing⟩⟩

theorem holds_length {α : Type} {Says : Value → α → Prop} {vs : List Value} {a : Option α}
    (h : Holds Says vs a) : vs.length ≤ 1 := by
  cases h <;> simp

theorem once_of_fits (h : Fits members e) : Once members := by
  intro field hf
  simp only [known, List.mem_cons, List.not_mem_nil, or_false] at hf
  rcases hf with rfl | rfl | rfl | rfl | rfl
  · obtain ⟨v, hv, -⟩ := h.op
    simp [hv]
  · exact holds_length h.data
  · exact holds_length h.sessionId
  · exact holds_length h.rows
  · exact holds_length h.cols

/-- One value at most, which is told, absent, or null. -/
theorem told_of_length {vs : List Value} (h : vs.length ≤ 1) :
    (vs.filter isTold = [] → vs = [] ∨ vs = [.null]) ∧
      ∀ v, vs.filter isTold = [v] → vs = [v] := by
  match vs, h with
  | [], _ => simp
  | [w], _ =>
    cases w with
    | null => simp [isTold]
    | bool | number | string | array | object | broken =>
      exact ⟨nofun, fun v hv => hv⟩

theorem holds_transfer {α : Type} {Says : Value → α → Prop} {vs vs' : List Value} {a : Option α}
    (h : Holds Says vs a) (told : ∀ v a, Says v a → isTold v = true) (hl : vs'.length ≤ 1)
    (same : vs.filter isTold = vs'.filter isTold) : Holds Says vs' a := by
  obtain ⟨hnone, hsome⟩ := told_of_length hl
  cases h with
  | missing | null =>
    rcases hnone same.symm with rfl | rfl
    · exact .missing
    · exact .null
  | @present v a meant =>
    have hv : [v].filter isTold = [v] := by simp [told v a meant]
    rw [hsome v (same.symm.trans hv)]
    exact .present meant

theorem told_op {v : Value} {op : Op} (h : IsOp v op) : isTold v = true := by
  rcases h with rfl | rfl <;> rfl

theorem told_text {v : Value} {s : String} (h : IsText v s) : isTold v = true := by
  subst h
  rfl

theorem told_count {v : Value} {n : Nat} (h : IsCount v n) : isTold v = true := by
  obtain ⟨ds, rfl, -⟩ := h
  rfl

theorem fits_transfer (h : Fits members e) (once : Once members')
    (same : SameTold members members') : Fits members' e := by
  refine ⟨?_, ?_, ?_, ?_, ?_⟩
  · obtain ⟨v, hv, hop⟩ := h.op
    have hs := same "op" (by simp [known])
    have hv' : [v].filter isTold = [v] := by simp [told_op hop]
    rw [hv, hv'] at hs
    exact ⟨v, (told_of_length (once "op" (by simp [known]))).2 v hs.symm, hop⟩
  · exact holds_transfer h.data (fun _ _ => told_text) (once "data" (by simp [known]))
      (same "data" (by simp [known]))
  · exact holds_transfer h.sessionId (fun _ _ => told_text) (once "sessionId" (by simp [known]))
      (same "sessionId" (by simp [known]))
  · exact holds_transfer h.rows (fun _ _ => told_count) (once "rows" (by simp [known]))
      (same "rows" (by simp [known]))
  · exact holds_transfer h.cols (fun _ _ => told_count) (once "cols" (by simp [known]))
      (same "cols" (by simp [known]))

/-- An object is read as an envelope exactly if one member has the envelope's operation and each
other field is bound at most once, to what the envelope holds or to null; what else begins like an
object is refused. So no field may be bound twice, and the order of the members, the escapes of
their strings, nulls and unknown members make no difference. -/
theorem object_grammar (text : String) :
    (∀ members e, WritesObject text.toList members →
      (Envelope.read text = .ok e ↔ Named members ∧ Fits members e)) ∧
    (∀ b r e, Blanks b → text.toList = b ++ '\x7b' :: r → Envelope.read text = .ok e →
      ∃ members, WritesObject text.toList members) ∧
    (∀ members e, WritesObject text.toList members → Envelope.read text = .ok e → Once members) ∧
    (∀ text' members members' e, WritesObject text.toList members →
      WritesObject text'.toList members' → Envelope.read text = .ok e →
      Named members' → Once members' → SameTold members members' →
      Envelope.read text' = .ok e) := by
  refine ⟨fun members e h => read_iff h, fun b r e hb ht h => object_of_read hb ht h,
    fun members e h hr => once_of_fits ((read_iff h).mp hr).2, ?_⟩
  intro text' members members' e h h' hr hn once same
  exact (read_iff h').mpr ⟨hn, fits_transfer ((read_iff h).mp hr).2 once same⟩

/-- What the members of an envelope on the wire mean. -/
def meaning (e : Envelope) : List (String × Value) :=
  [("op", .string (some e.op.name))]
    ++ (e.data.map fun s => ("data", .string (some s))).toList
    ++ (e.sessionId.map fun s => ("sessionId", .string (some s))).toList
    ++ (e.rows.map fun n => ("rows", .number { whole := Nat.toDigits 10 n })).toList
    ++ (e.cols.map fun n => ("cols", .number { whole := Nat.toDigits 10 n })).toList

theorem means_optional {α : Type} (name : String) (write : α → String) (f : α → Value)
    (h : ∀ a, Writes (write a).toList (f a)) (o : Option α) :
    List.Forall₂ Means (o.map fun a => (name, write a)).toList
      (o.map fun a => (name, f a)).toList := by
  cases o with
  | none => exact .nil
  | some a => exact .cons ⟨rfl, h a⟩ .nil

theorem writes_envelope (e : Envelope) : WritesObject e.write.toList (bound (meaning e)) := by
  refine writes_object ?_ (by simp)
  refine List.rel_append (List.rel_append (List.rel_append (List.rel_append ?_ ?_) ?_) ?_) ?_
  · exact .cons ⟨rfl, writes_quote _⟩ .nil
  · exact means_optional "data" Json.quote _ writes_quote e.data
  · exact means_optional "sessionId" Json.quote _ writes_quote e.sessionId
  · exact means_optional "rows" (fun n => toString n) _ writes_digits e.rows
  · exact means_optional "cols" (fun n => toString n) _ writes_digits e.cols

theorem named_bound (l : List (String × Value)) : Named (bound l) := by
  induction l with
  | nil => trivial
  | cons m l ih => exact ⟨nofun, ih⟩

theorem values_of_bound (field : String) (l : List (String × Value)) :
    valuesOf field (bound l) = (l.filter fun m => m.1 = field).map Prod.snd := by
  induction l with
  | nil => rfl
  | cons m l ih =>
    obtain ⟨name, v⟩ := m
    by_cases h : name = field <;> simp [bound, valuesOf, h, ih]

theorem filter_optional {α : Type} (name field : String) (f : α → Value) (o : Option α) :
    ((o.map fun a => (name, f a)).toList.filter fun m => m.1 = field) =
      if name = field then (o.map fun a => (name, f a)).toList else [] := by
  cases o with
  | none => simp
  | some a => by_cases h : name = field <;> simp [h]

theorem holds_optional {α : Type} {Says : Value → α → Prop} {f : α → Value} {o : Option α}
    (h : ∀ a ∈ o, Says (f a) a) (name : String) :
    Holds Says ((o.map fun a => (name, f a)).toList.map Prod.snd) o := by
  cases o with
  | none => exact .missing
  | some a => exact .present (h a rfl)

theorem is_count_digits {n : Nat} (h : n ≤ maxDimension) :
    IsCount (.number { whole := Nat.toDigits 10 n }) n :=
  ⟨_, rfl, DecimalDigits.of_digits_to_digits n, h⟩

theorem fits_meaning {e : Envelope} (hrows : ∀ n ∈ e.rows, n ≤ maxDimension)
    (hcols : ∀ n ∈ e.cols, n ≤ maxDimension) : Fits (bound (meaning e)) e := by
  have hv (field : String) := values_of_bound field (meaning e)
  simp only [meaning, List.filter_append, filter_optional] at hv
  have hdata : ∀ s ∈ e.data, IsText (.string (some s)) s := fun _ _ => rfl
  have hsession : ∀ s ∈ e.sessionId, IsText (.string (some s)) s := fun _ _ => rfl
  refine ⟨⟨.string (some e.op.name), ?_, .inl rfl⟩, ?_, ?_, ?_, ?_⟩
  · rw [meaning, hv]
    simp
  · rw [meaning, hv]
    simpa using holds_optional hdata "data"
  · rw [meaning, hv]
    simpa using holds_optional hsession "sessionId"
  · rw [meaning, hv]
    simpa using holds_optional (fun n hn => is_count_digits (hrows n hn)) "rows"
  · rw [meaning, hv]
    simpa using holds_optional (fun n hn => is_count_digits (hcols n hn)) "cols"

/-- An envelope whose dimensions fit 16 bits is read as it was written. -/
theorem envelope_reads_back (e : Envelope) (hrows : ∀ n ∈ e.rows, n ≤ maxDimension)
    (hcols : ∀ n ∈ e.cols, n ≤ maxDimension) : Envelope.read e.write = .ok e :=
  (read_iff (writes_envelope e)).mpr ⟨named_bound _, fits_meaning hrows hcols⟩

/-- A resize with a size and a text that needs escapes. -/
theorem resize_reads_back :
    let e : Envelope := ⟨.resize, some "\"\\\n\x00😀", none, some 40, some 65535⟩
    (∀ n ∈ e.rows, n ≤ maxDimension) ∧ (∀ n ∈ e.cols, n ≤ maxDimension) ∧
      Envelope.read e.write = .ok e :=
  ⟨by simp [maxDimension], by simp [maxDimension],
    envelope_reads_back _ (by simp [maxDimension]) (by simp [maxDimension])⟩

end PodConsole.Proofs.Envelopes
