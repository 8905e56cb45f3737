import PodConsole.Wire.Reading

namespace PodConsole.Proofs.EnvelopeMembers
open Json Wire

/-- The values bound to a name, in order. -/
def valuesOf (name : String) : Members → List Value
  | .closed | .broken _ => []
  | .cons n v rest => if n = some name then v :: valuesOf name rest else valuesOf name rest

/-- No name has an unpaired surrogate. -/
def Named : Members → Prop
  | .closed | .broken _ => True
  | .cons n _ rest => n ≠ none ∧ Named rest

/-- An operation is its name, or the object that binds this name to null. -/
def IsOp (v : Value) (op : Op) : Prop :=
  v = .string (some op.name) ∨ v = .object (.cons (some op.name) .null .closed)

def IsText (v : Value) (s : String) : Prop :=
  v = .string (some s)

/-- Digits alone, for a number of 16 bits. -/
def IsCount (v : Value) (n : Nat) : Prop :=
  ∃ ds, v = .number { whole := ds } ∧ Decimal.ofDigits ds = n ∧ n ≤ maxDimension

/-- The values of an optional field. Null and no value at all say the same. -/
inductive Holds {α : Type} (Says : Value → α → Prop) : List Value → Option α → Prop where
  | missing : Holds Says [] none
  | null : Holds Says [.null] none
  | present {v : Value} {a : α} (meant : Says v a) : Holds Says [v] (some a)

/-- The members say what the envelope holds, each field at most once. -/
structure Fits (members : Members) (e : Envelope) : Prop where
  op : ∃ v, valuesOf "op" members = [v] ∧ IsOp v e.op
  data : Holds IsText (valuesOf "data" members) e.data
  sessionId : Holds IsText (valuesOf "sessionId" members) e.sessionId
  rows : Holds IsCount (valuesOf "rows" members) e.rows
  cols : Holds IsCount (valuesOf "cols" members) e.cols

theorem of_name_name (op : Op) : Op.ofName? op.name = some op := by
  cases op <;> decide

theorem of_name_iff {name : String} {op : Op} : Op.ofName? name = some op ↔ name = op.name := by
  constructor
  · intro h
    have := List.find?_some h
    simpa using (of_decide_eq_true this).symm
  · rintro rfl
    exact of_name_name op

theorem refuse_ne_ok {α : Type} (v : Value) (wanted : String) (a : α) :
    refuse v wanted ≠ .ok a := by
  unfold refuse
  split <;> nofun

theorem named_op_iff {name : String} {op : Op} : namedOp name = .ok op ↔ name = op.name := by
  rw [← of_name_iff, namedOp]
  split
  · rename_i op' h
    simp [h]
  · rename_i h
    simp [h]

theorem read_op_iff {v : Value} {op : Op} : readOp v = .ok op ↔ IsOp v op := by
  unfold readOp
  split
  · rename_i name
    simp [IsOp, named_op_iff]
  · rename_i name value rest
    cases hn : namedOp name with
    | error fault =>
      have hne : name ≠ op.name := fun h => by simp [named_op_iff.mpr h] at hn
      simp [bind, Except.bind, IsOp, hne]
    | ok op' =>
      obtain rfl := named_op_iff.mp hn
      simp only [bind, Except.bind]
      split
      · simp [IsOp, ← named_op_iff, hn]
      · rename_i hrest
        have hfalse : ¬IsOp (.object (.cons (some op'.name) .null rest)) op := by
          rintro (h | h)
          · cases h
          · simp only [Value.object.injEq, Members.cons.injEq] at h
            exact hrest h.2.2
        simp [hfalse]
      · rename_i hvalue
        have hfalse : ¬IsOp (.object (.cons (some op'.name) value rest)) op := by
          rintro (h | h)
          · cases h
          · simp only [Value.object.injEq, Members.cons.injEq] at h
            exact hvalue h.2.1 h.2.2
        simp [hfalse, refuse_ne_ok]
  · rename_i found
    simp [IsOp, refuse_ne_ok]
  · rename_i hs ho hb
    constructor
    · nofun
    · rintro (rfl | rfl)
      · exact absurd rfl (hs _)
      · exact absurd rfl (ho _ _ _)

theorem read_text_iff {v : Value} {s : Option String} :
    readText v = .ok s ↔ Holds IsText [v] s := by
  constructor
  · intro h
    unfold readText at h
    split at h
    · cases h
      exact .null
    · cases h
      exact .present rfl
    · exact absurd h (refuse_ne_ok _ _ _)
  · rintro (_ | _ | ⟨rfl⟩) <;> rfl

/-- Only digits alone are read as a number that a word holds. -/
theorem quantity_unsigned_iff {n : Numeral} {k : Nat} :
    n.quantity = .unsigned k ↔
      n = { whole := n.whole } ∧ Decimal.ofDigits n.whole = k ∧ k ≤ Decimal.maxWord := by
  obtain ⟨negative, whole, fraction, exponent⟩ := n
  by_cases h : fraction = [] ∧ exponent = none ∧ negative = false ∧
      Decimal.ofDigits whole ≤ Decimal.maxWord
  · obtain ⟨rfl, rfl, rfl, hle⟩ := h
    simp only [Numeral.quantity, Numeral.isWhole, List.isEmpty_nil, Option.isNone_none,
      Bool.and_self, Bool.not_false, hle, decide_true, if_true, Quantity.unsigned.injEq, true_and]
    exact ⟨fun hk => ⟨hk, hk ▸ hle⟩, And.left⟩
  · constructor
    · intro hq
      unfold Numeral.quantity Numeral.isWhole at hq
      simp only at hq
      split at hq
      · rename_i hc
        simp only [Bool.and_eq_true, List.isEmpty_iff, Option.isNone_iff_eq_none,
          Bool.not_eq_true', decide_eq_true_eq] at hc
        exact absurd ⟨hc.1.1.1, hc.1.1.2, hc.1.2, hc.2⟩ h
      · split at hq
        · cases hq
        · split at hq <;> cases hq
    · rintro ⟨hn, rfl, hle⟩
      cases hn
      exact absurd ⟨rfl, rfl, rfl, hle⟩ h

theorem read_dimension_iff {v : Value} {n : Option Nat} :
    readDimension v = .ok n ↔ Holds IsCount [v] n := by
  constructor
  · intro h
    unfold readDimension at h
    split at h
    · cases h
      exact .null
    · rename_i m
      split at h
      · rename_i k hq
        obtain ⟨hm, hk, -⟩ := quantity_unsigned_iff.mp hq
        split at h
        · rename_i hle
          cases h
          exact .present ⟨m.whole, by rw [← hm], hk, hle⟩
        · cases h
      · cases h
      · exact absurd h (refuse_ne_ok _ _ _)
    · exact absurd h (refuse_ne_ok _ _ _)
  · rintro (_ | _ | ⟨ds, rfl, rfl, hle⟩)
    · rfl
    · have hw : Decimal.ofDigits ds ≤ Decimal.maxWord := Nat.le_trans hle (by decide)
      have hq : Numeral.quantity { whole := ds } = .unsigned (Decimal.ofDigits ds) :=
        quantity_unsigned_iff.mpr ⟨rfl, rfl, hw⟩
      simp [readDimension, hq, hle]

/-- What reading one more member does to a field's place in the draft. -/
def Placed {α : Type} (read : Value → Except Fault α) (field name : String) (value : Value)
    (before after : Option α) : Prop :=
  if name = field then before = none ∧ ∃ a, read value = .ok a ∧ after = some a
  else after = before

def known : List String := ["op", "data", "sessionId", "rows", "cols"]

variable {d d' : Draft} {name : String} {value : Value}

theorem map_ok_iff {α β : Type} {x : Except Fault α} {f : α → β} {b : β} :
    x.map f = .ok b ↔ ∃ a, x = .ok a ∧ b = f a := by
  cases x <;> simp [Except.map, eq_comm]

theorem member_iff : d.member name value = .ok d' ↔
    Placed readOp "op" name value d.op d'.op ∧
    Placed readText "data" name value d.data d'.data ∧
    Placed readText "sessionId" name value d.sessionId d'.sessionId ∧
    Placed readDimension "rows" name value d.rows d'.rows ∧
    Placed readDimension "cols" name value d.cols d'.cols ∧
    (name ∉ known → value.isWhole = true) := by
  obtain ⟨op, data, sessionId, rows, cols⟩ := d
  obtain ⟨op', data', sessionId', rows', cols'⟩ := d'
  unfold Draft.member
  split
  · cases op <;> simp [Placed, known, map_ok_iff, ← exists_and_right, and_assoc]
  · cases data <;> simp [Placed, known, map_ok_iff, ← exists_and_right, and_assoc, and_left_comm]
  · cases sessionId <;>
      simp [Placed, known, map_ok_iff, ← exists_and_right, and_assoc, and_left_comm]
  · cases rows <;> simp [Placed, known, map_ok_iff, ← exists_and_right, and_assoc, and_left_comm]
  · cases cols <;> simp [Placed, known, map_ok_iff, and_left_comm]
  · rename_i hop hdata hsession hrows hcols
    have hop : name ≠ "op" := hop
    have hdata : name ≠ "data" := hdata
    have hsession : name ≠ "sessionId" := hsession
    have hrows : name ≠ "rows" := hrows
    have hcols : name ≠ "cols" := hcols
    cases hw : value.isWhole <;>
      simp [Placed, known, hop, hdata, hsession, hrows, hcols, eq_comm]

/-- What reading all values of a field does to its place in the draft. -/
inductive Filled {α : Type} (read : Value → Except Fault α) :
    Option α → List Value → Option α → Prop where
  | keep (before : Option α) : Filled read before [] before
  | fill {v : Value} {a : α} (reads : read v = .ok a) : Filled read none [v] (some a)

theorem filled_cons {α : Type} {read : Value → Except Fault α} {field : String} {rest : Members}
    {before after : Option α} :
    (∃ between, Placed read field name value before between ∧
      Filled read between (valuesOf field rest) after) ↔
    Filled read before (valuesOf field (.cons (some name) value rest)) after := by
  simp only [Placed, valuesOf, Option.some.injEq]
  split
  · constructor
    · rintro ⟨between, ⟨rfl, a, ha, rfl⟩, hf⟩
      cases hv : valuesOf field rest with
      | nil =>
        rw [hv] at hf
        cases hf
        exact .fill ha
      | cons v vs =>
        rw [hv] at hf
        cases hf
    · intro hf
      generalize hvs : valuesOf field rest = vs at hf
      cases hf with
      | fill ha => exact ⟨_, ⟨rfl, _, ha, rfl⟩, .keep _⟩
  · simp

theorem bind_ok_iff {α β : Type} {x : Except Fault α} {f : α → Except Fault β} {b : β} :
    (x >>= f) = .ok b ↔ ∃ a, x = .ok a ∧ f a = .ok b := by
  cases x <;> simp [bind, Except.bind]

theorem filled_nil {α : Type} {read : Value → Except Fault α} {before after : Option α} :
    Filled read before [] after ↔ after = before := by
  constructor
  · intro h
    cases h
    rfl
  · rintro rfl
    exact .keep _

/-- The draft collects each field from its own values, in any order of the members. -/
theorem members_iff {d d' : Draft} : ∀ {members : Members}, members.isWhole = true →
    (d.members members = .ok d' ↔ Named members ∧
      Filled readOp d.op (valuesOf "op" members) d'.op ∧
      Filled readText d.data (valuesOf "data" members) d'.data ∧
      Filled readText d.sessionId (valuesOf "sessionId" members) d'.sessionId ∧
      Filled readDimension d.rows (valuesOf "rows" members) d'.rows ∧
      Filled readDimension d.cols (valuesOf "cols" members) d'.cols)
  | .closed, _ => by
    obtain ⟨op, data, sessionId, rows, cols⟩ := d
    obtain ⟨op', data', sessionId', rows', cols'⟩ := d'
    simp [Draft.members, Named, valuesOf, filled_nil, eq_comm]
  | .broken _, hw => by simp [Members.isWhole] at hw
  | .cons none value rest, _ => by simp [Draft.members, Named]
  | .cons (some name) value rest, hw => by
    simp only [Members.isWhole, Bool.and_eq_true] at hw
    simp only [Draft.members, bind_ok_iff, member_iff, members_iff hw.2, ← filled_cons]
    constructor
    · rintro ⟨between, ⟨hop, hdata, hsession, hrows, hcols, -⟩, hn, fop, fdata, fsession, frows,
        fcols⟩
      exact ⟨⟨by simp, hn⟩, ⟨_, hop, fop⟩, ⟨_, hdata, fdata⟩, ⟨_, hsession, fsession⟩,
        ⟨_, hrows, frows⟩, ⟨_, hcols, fcols⟩⟩
    · rintro ⟨⟨-, hn⟩, ⟨op, hop, fop⟩, ⟨data, hdata, fdata⟩, ⟨sessionId, hsession, fsession⟩,
        ⟨rows, hrows, frows⟩, ⟨cols, hcols, fcols⟩⟩
      exact ⟨⟨op, data, sessionId, rows, cols⟩,
        ⟨hop, hdata, hsession, hrows, hcols, fun _ => hw.1⟩, hn, fop, fdata, fsession, frows, fcols⟩

theorem whole_of_op {op : Op} (h : IsOp value op) : value.isWhole = true := by
  rcases h with rfl | rfl <;> simp [Value.isWhole, Members.isWhole]

theorem whole_of_text {s : Option String} (h : Holds IsText [value] s) : value.isWhole = true := by
  rcases h with _ | _ | ⟨rfl⟩ <;> simp [Value.isWhole]

theorem whole_of_count {n : Option Nat} (h : Holds IsCount [value] n) : value.isWhole = true := by
  rcases h with _ | _ | ⟨ds, rfl, -⟩ <;> simp [Value.isWhole]

theorem Placed.whole {α : Type} {read : Value → Except Fault α} {field : String}
    {before after : Option α} (h : Placed read field name value before after)
    (reads : ∀ a, read value = .ok a → value.isWhole = true) (hn : name = field) :
    value.isWhole = true := by
  rw [Placed, if_pos hn] at h
  obtain ⟨-, a, ha, -⟩ := h
  exact reads a ha

theorem member_whole (h : d.member name value = .ok d') : value.isWhole = true := by
  obtain ⟨hop, hdata, hsession, hrows, hcols, hother⟩ := member_iff.mp h
  by_cases hk : name ∈ known
  · simp only [known, List.mem_cons, List.not_mem_nil, or_false] at hk
    rcases hk with hn | hn | hn | hn | hn
    · exact hop.whole (fun _ hr => whole_of_op (read_op_iff.mp hr)) hn
    · exact hdata.whole (fun _ hr => whole_of_text (read_text_iff.mp hr)) hn
    · exact hsession.whole (fun _ hr => whole_of_text (read_text_iff.mp hr)) hn
    · exact hrows.whole (fun _ hr => whole_of_count (read_dimension_iff.mp hr)) hn
    · exact hcols.whole (fun _ hr => whole_of_count (read_dimension_iff.mp hr)) hn
  · exact hother hk

/-- Members of which one is not JSON are refused, whatever its name. -/
theorem members_whole_of_ok {d d' : Draft} : ∀ {members : Members},
    d.members members = .ok d' → members.isWhole = true
  | .closed, _ => rfl
  | .broken _, h => by simp [Draft.members] at h
  | .cons none _ _, h => by simp [Draft.members] at h
  | .cons (some name) value rest, h => by
    rw [Draft.members, bind_ok_iff] at h
    obtain ⟨between, hm, hr⟩ := h
    simp [Members.isWhole, member_whole hm, members_whole_of_ok hr]

theorem filled_optional {α : Type} {read : Value → Except Fault (Option α)}
    {Says : Value → α → Prop} (reads : ∀ {v a}, read v = .ok a ↔ Holds Says [v] a)
    {vs : List Value} {a : Option α} :
    (∃ after, Filled read none vs after ∧ after.join = a) ↔ Holds Says vs a := by
  constructor
  · rintro ⟨after, hf, rfl⟩
    cases hf with
    | keep => exact .missing
    | fill hr => exact reads.mp hr
  · intro h
    cases h with
    | missing => exact ⟨none, .keep none, rfl⟩
    | null => exact ⟨some none, .fill (reads.mpr .null), rfl⟩
    | present meant => exact ⟨some (some _), .fill (reads.mpr (.present meant)), rfl⟩

theorem filled_op {vs : List Value} {op : Op} :
    Filled readOp none vs (some op) ↔ ∃ v, vs = [v] ∧ IsOp v op := by
  constructor
  · intro h
    cases h with
    | fill hr => exact ⟨_, rfl, read_op_iff.mp hr⟩
  · rintro ⟨v, rfl, h⟩
    exact .fill (read_op_iff.mpr h)

theorem finish_iff {d : Draft} {e : Envelope} : d.finish = .ok e ↔
    d.op = some e.op ∧ d.data.join = e.data ∧ d.sessionId.join = e.sessionId ∧
      d.rows.join = e.rows ∧ d.cols.join = e.cols := by
  obtain ⟨op, data, sessionId, rows, cols⟩ := d
  obtain ⟨op', data', sessionId', rows', cols'⟩ := e
  cases op <;> simp [Draft.finish]

/-- An object is an envelope exactly if its members say so. -/
theorem object_iff {members : Members} {e : Envelope} :
    Envelope.ofValue (.object members) = .ok e ↔
      members.isWhole = true ∧ Named members ∧ Fits members e := by
  rw [Envelope.ofValue, bind_ok_iff]
  constructor
  · rintro ⟨d, hd, hf⟩
    have hw := members_whole_of_ok hd
    obtain ⟨hn, hop, hdata, hsession, hrows, hcols⟩ := (members_iff hw).mp hd
    obtain ⟨fop, fdata, fsession, frows, fcols⟩ := finish_iff.mp hf
    exact ⟨hw, hn, ⟨filled_op.mp (fop ▸ hop), (filled_optional read_text_iff).mp ⟨_, hdata, fdata⟩,
      (filled_optional read_text_iff).mp ⟨_, hsession, fsession⟩,
      (filled_optional read_dimension_iff).mp ⟨_, hrows, frows⟩,
      (filled_optional read_dimension_iff).mp ⟨_, hcols, fcols⟩⟩⟩
  · rintro ⟨hw, hn, hfits⟩
    obtain ⟨data, hdata, fdata⟩ := (filled_optional read_text_iff).mpr hfits.data
    obtain ⟨session, hsession, fsession⟩ := (filled_optional read_text_iff).mpr hfits.sessionId
    obtain ⟨rows, hrows, frows⟩ := (filled_optional read_dimension_iff).mpr hfits.rows
    obtain ⟨cols, hcols, fcols⟩ := (filled_optional read_dimension_iff).mpr hfits.cols
    exact ⟨⟨some e.op, data, session, rows, cols⟩,
      (members_iff hw).mpr ⟨hn, filled_op.mpr hfits.op, hdata, hsession, hrows, hcols⟩,
      finish_iff.mpr ⟨rfl, fdata, fsession, frows, fcols⟩⟩

end PodConsole.Proofs.EnvelopeMembers
