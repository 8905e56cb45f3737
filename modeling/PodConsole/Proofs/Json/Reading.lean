import PodConsole.Proofs.Json.Numbers
import PodConsole.Proofs.Json.Strings
import Mathlib.Data.List.DropRight

namespace PodConsole.Proofs.JsonReading
open Json Decimal Grammar JsonNumbers JsonStrings

variable {b cs r : List Char} {v : Value} {fuel : Nat}

theorem skip_blanks (h : Blanks b) (hr : ∀ c ∈ r.head?, isSpace c = false) :
    skipSpace (b ++ r) = r := by
  rw [skipSpace, List.dropWhile_append_of_pos h]
  cases r with
  | nil => rfl
  | cons c r => simp [hr c rfl]

theorem blanks_skipped (cs : List Char) : ∃ b, cs = b ++ skipSpace cs ∧ Blanks b :=
  ⟨cs.takeWhile isSpace, List.takeWhile_append_dropWhile.symm, fun _ h => List.mem_takeWhile_imp h⟩

/-- What may stand behind a value inside a container or a document. -/
def Bounded (r : List Char) : Prop :=
  ∀ c ∈ r.head?, isSpace c = true ∨ c = ',' ∨ c = ']' ∨ c = '\x7d'

theorem bounded_blanks (h : Blanks b) (hr : Bounded r) : Bounded (b ++ r) := by
  cases b with
  | nil => exact hr
  | cons c b =>
    intro d hd
    cases hd
    exact .inl (h c (by simp))

theorem Bounded.ended (h : Bounded r) : Ended r := by
  intro c hc
  rcases h c hc with hs | rfl | rfl | rfl
  · simp only [isSpace, Bool.or_eq_true, decide_eq_true_eq] at hs
    rcases hs with ((rfl | rfl) | rfl) | rfl <;> decide
  all_goals decide

/-- A value begins with no blank and does not look like the end of an array. -/
theorem writes_head (h : Writes cs v) :
    ∃ c rest, cs = c :: rest ∧ isSpace c = false ∧ c ≠ ']' := by
  cases h with
  | number numeric =>
    obtain ⟨d, rest, rfl, hd⟩ := numeric_head numeric
    refine ⟨d, rest, rfl, ?_, ?_⟩
    · by_contra hs
      simp only [isSpace, Bool.not_eq_false, Bool.or_eq_true, decide_eq_true_eq] at hs
      rcases hs with ((rfl | rfl) | rfl) | rfl <;> simp [isDigit] at hd
    · rintro rfl
      simp [isDigit] at hd
  | null | true | false | negative | string | noItems | array | noMembers | object =>
    exact ⟨_, _, rfl, by decide, by decide⟩

theorem skip_to_value (hb : Blanks b) (h : Writes cs v) (r : List Char) :
    skipSpace (b ++ cs ++ r) = cs ++ r := by
  obtain ⟨c, rest, rfl, hs, -⟩ := writes_head h
  rw [List.append_assoc]
  exact skip_blanks hb fun d hd => by cases hd; exact hs

theorem read_digits (h : ∃ d rest, cs = d :: rest ∧ isDigit d = true) (hs : skipSpace b = cs) :
    readValue fuel b = readNumber false cs := by
  obtain ⟨d, rest, rfl, hd⟩ := h
  rw [readValue, hs]
  split
  all_goals first | rfl | (rename_i he; cases he; simp [isDigit] at hd)

/-- With this fuel, values of less than its length are read as they are written. -/
def ReadsValues (fuel : Nat) : Prop :=
  ∀ b cs v r, Blanks b → Writes cs v → Bounded r → cs.length < fuel →
    readValue fuel (b ++ cs ++ r) = (v, r)

def ReadsItems (fuel : Nat) : Prop :=
  ∀ cs items r, WritesItems cs items → cs.length + 1 < fuel →
    readItems fuel (cs ++ ']' :: r) = (items, r)

def ReadsMembers (fuel : Nat) : Prop :=
  ∀ cs members r, WritesMembers cs members → cs.length + 1 < fuel →
    readMembers fuel (cs ++ '\x7d' :: r) = (members, r)

theorem skip_skipped (cs : List Char) : skipSpace (skipSpace cs) = skipSpace cs := by
  rw [skipSpace, skipSpace, List.dropWhile_idempotent]

/-- The blanks before the first item are already skipped when the items are read. -/
theorem read_items_skipped (fuel : Nat) (cs : List Char) :
    readItems fuel (skipSpace cs) = readItems fuel cs := by
  cases fuel with
  | zero => rw [readItems, readItems]
  | succ fuel =>
    have hv : readValue fuel (skipSpace cs) = readValue fuel cs := by
      rw [readValue, skip_skipped, ← readValue]
    rw [readItems, readItems, hv]

theorem read_members_skipped (fuel : Nat) (cs : List Char) :
    readMembers fuel (skipSpace cs) = readMembers fuel cs := by
  cases fuel with
  | zero => rw [readMembers, readMembers]
  | succ fuel => simp only [readMembers, skip_skipped]

theorem items_not_closed {items : Items} (h : WritesItems cs items) (r rest : List Char) :
    skipSpace (cs ++ r) ≠ ']' :: rest := by
  intro he
  cases h with
  | last before item after =>
    obtain ⟨c, tail, rfl, -, hc⟩ := writes_head item
    rw [List.append_assoc, skip_to_value before item] at he
    exact hc (List.cons.inj he).1
  | more before item after others =>
    obtain ⟨c, tail, rfl, -, hc⟩ := writes_head item
    rw [List.append_assoc, List.append_assoc, skip_to_value before item] at he
    exact hc (List.cons.inj he).1

/-- Members begin with a quote. -/
theorem members_head {members : Members} (h : WritesMembers cs members) (r : List Char) :
    (skipSpace (cs ++ r)).head? = some '"' := by
  cases h with
  | last before | more before =>
    simp only [List.append_assoc, List.cons_append]
    rw [skip_blanks before (by simp [isSpace])]
    rfl

theorem values_read (hi : ReadsItems fuel) (hm : ReadsMembers fuel) : ReadsValues (fuel + 1) := by
  intro b cs v r hb h hr hl
  have hs := skip_to_value hb h r
  cases h with
  | null | true | false =>
    rw [readValue, hs]
    rfl
  | number numeric =>
    obtain ⟨d, rest, hd⟩ := numeric_head numeric
    rw [read_digits ⟨d, rest ++ r, by simp [hd]⟩ hs, readNumber, read_numeral numeric hr.ended]
  | negative numeric =>
    rw [readValue, hs]
    simp only [List.cons_append, readNumber, read_numeral numeric hr.ended]
  | @string raw text quoted =>
    rw [readValue, hs]
    have hread : readString [] true (raw ++ '"' :: r) = some (text, r) :=
      read_string_iff.mpr ⟨raw, rfl, quoted⟩
    simp [hread]
  | @noItems gap blanks =>
    rw [readValue, hs]
    have hclose : skipSpace (gap ++ ']' :: r) = ']' :: r := skip_blanks blanks (by simp [isSpace])
    simp [hclose]
  | @array body items inside =>
    rw [readValue, hs]
    have hread := hi body items r inside (by simp at hl; omega)
    simp only [List.cons_append, List.append_assoc, List.nil_append]
    split
    · rename_i he
      exact absurd he (items_not_closed inside _ _)
    · rw [read_items_skipped, hread]
  | @noMembers gap blanks =>
    rw [readValue, hs]
    have hclose : skipSpace (gap ++ '\x7d' :: r) = '\x7d' :: r :=
      skip_blanks blanks (by simp [isSpace])
    simp [hclose]
  | @object body members inside =>
    rw [readValue, hs]
    have hread := hm body members r inside (by simp at hl; omega)
    simp only [List.cons_append, List.append_assoc, List.nil_append]
    split
    · rename_i he
      have := members_head inside ('\x7d' :: r)
      simp [he] at this
    · rw [read_members_skipped, hread]

theorem items_read (hv : ReadsValues fuel) (hi : ReadsItems fuel) : ReadsItems (fuel + 1) := by
  intro cs items r h hl
  cases h with
  | @last b t b' v before item after =>
    have hread := hv b t v (b' ++ ']' :: r) before item
      (bounded_blanks after (by simp [Bounded])) (by simp at hl; omega)
    have hskip : skipSpace (b' ++ ']' :: r) = ']' :: r := skip_blanks after (by simp [isSpace])
    rw [readItems]
    rw [List.append_assoc] at hread ⊢
    simp [hread, hskip]
  | @more b t b' rest v others before item after inside =>
    have hread := hv b t v (b' ++ ',' :: (rest ++ ']' :: r)) before item
      (bounded_blanks after (by simp [Bounded])) (by simp at hl; omega)
    have hskip : skipSpace (b' ++ ',' :: (rest ++ ']' :: r)) = ',' :: (rest ++ ']' :: r) :=
      skip_blanks after (by simp [isSpace])
    rw [readItems]
    simp only [List.append_assoc, List.cons_append] at hread ⊢
    simp [hread, hskip, hi rest others r inside (by simp at hl; omega)]

/-- One member, up to the comma or the brace behind it. -/
theorem member_read (hv : ReadsValues fuel) {raw b' c t c' : List Char} {name : Option String}
    (before : Blanks b) (named : Quoted raw name) (after : Blanks b') (opening : Blanks c)
    (value : Writes t v) (closing : Blanks c') {d : Char} (hd : d = ',' ∨ d = '\x7d')
    (hl : t.length < fuel) :
    ∃ r₁ r₂,
      skipSpace (b ++ ('"' :: raw ++ '"' :: b') ++ ':' :: (c ++ t ++ c' ++ d :: r)) = '"' :: r₁ ∧
      readString [] true r₁ = some (name, r₂) ∧
      skipSpace r₂ = ':' :: (c ++ t ++ (c' ++ d :: r)) ∧
      readValue fuel (c ++ t ++ (c' ++ d :: r)) = (v, c' ++ d :: r) ∧
      skipSpace (c' ++ d :: r) = d :: r := by
  have hbounded : Bounded (d :: r) := by
    intro e he
    cases he
    rcases hd with rfl | rfl <;> simp
  have hd' : isSpace d = false := by rcases hd with rfl | rfl <;> decide
  refine ⟨raw ++ '"' :: (b' ++ ':' :: (c ++ t ++ (c' ++ d :: r))),
    b' ++ ':' :: (c ++ t ++ (c' ++ d :: r)), ?_, read_string_iff.mpr ⟨raw, rfl, named⟩,
    skip_blanks after (by simp [isSpace]), hv c t v _ opening value ?_ hl,
    skip_blanks closing (by simp [hd'])⟩
  · simp only [List.append_assoc, List.cons_append]
    exact skip_blanks before (by simp [isSpace])
  · exact bounded_blanks closing hbounded

theorem members_read (hv : ReadsValues fuel) (hm : ReadsMembers fuel) :
    ReadsMembers (fuel + 1) := by
  intro cs members r h hl
  cases h with
  | @last b raw b' c t c' name v before named after opening value closing =>
    obtain ⟨r₁, r₂, hq, hs, hc, hread, hskip⟩ := member_read (r := r) hv before named after opening
      value closing (.inr rfl) (by simp at hl; omega)
    rw [readMembers]
    simp only [List.append_assoc, List.cons_append] at hq hc hread hskip ⊢
    simp [hq, hs, hc, hread, hskip]
  | @more b raw b' c t c' rest name v others before named after opening value closing inside =>
    obtain ⟨r₁, r₂, hq, hs, hc, hread, hskip⟩ := member_read (r := rest ++ '\x7d' :: r) hv before
      named after opening value closing (.inl rfl) (by simp at hl; omega)
    rw [readMembers]
    simp only [List.append_assoc, List.cons_append] at hq hc hread hskip ⊢
    simp [hq, hs, hc, hread, hskip, hm rest others r inside (by simp at hl; omega)]

theorem all_read (fuel : Nat) : ReadsValues fuel ∧ ReadsItems fuel ∧ ReadsMembers fuel := by
  induction fuel with
  | zero =>
    exact ⟨fun _ _ _ _ _ _ _ hl => absurd hl (Nat.not_lt_zero _),
      fun _ _ _ _ hl => absurd hl (Nat.not_lt_zero _),
      fun _ _ _ _ hl => absurd hl (Nat.not_lt_zero _)⟩
  | succ fuel ih =>
    obtain ⟨hv, hi, hm⟩ := ih
    exact ⟨values_read hi hm, items_read hv hi, members_read hv hm⟩

/-- With this fuel, a value without a broken place is written at the front of what was read. -/
def ValuesWritten (fuel : Nat) : Prop :=
  ∀ cs v r, readValue fuel cs = (v, r) → v.isWhole = true →
    ∃ b t, cs = b ++ t ++ r ∧ Blanks b ∧ Writes t v

def ItemsWritten (fuel : Nat) : Prop :=
  ∀ cs items r, readItems fuel cs = (items, r) → items.isWhole = true →
    ∃ t, cs = t ++ ']' :: r ∧ WritesItems t items

def MembersWritten (fuel : Nat) : Prop :=
  ∀ cs members r, readMembers fuel cs = (members, r) → members.isWhole = true →
    ∃ t, cs = t ++ '\x7d' :: r ∧ WritesMembers t members

theorem number_written {negative : Bool} (h : readNumber negative cs = (v, r))
    (hw : v.isWhole = true) : ∃ t n, cs = t ++ r ∧ v = .number n ∧ Numeric negative t n := by
  unfold readNumber at h
  split at h
  · rename_i n r' hn
    cases h
    obtain ⟨t, rfl, numeric⟩ := numeral_of_read hn
    exact ⟨t, n, rfl, rfl, numeric⟩
  · cases h
    simp [Value.isWhole] at hw

theorem values_written (hi : ∀ n, n + 1 = fuel → ItemsWritten n)
    (hm : ∀ n, n + 1 = fuel → MembersWritten n) : ValuesWritten fuel := by
  intro cs v r h hw
  obtain ⟨b, hcs, hb⟩ := blanks_skipped cs
  rw [readValue] at h
  -- One case for each way that a value can begin.
  split at h
  · rename_i he
    cases h
    exact ⟨b, _, by rw [hcs, he]; simp, hb, .null⟩
  · rename_i he
    cases h
    exact ⟨b, _, by rw [hcs, he]; simp, hb, .true⟩
  · rename_i he
    cases h
    exact ⟨b, _, by rw [hcs, he]; simp, hb, .false⟩
  · rename_i rest he
    split at h
    · rename_i text r' hs
      cases h
      obtain ⟨raw, rfl, quoted⟩ := read_string_iff.mp hs
      exact ⟨b, _, by rw [hcs, he]; simp, hb, .string quoted⟩
    · cases h
      simp [Value.isWhole] at hw
  · rename_i rest he
    obtain ⟨t, n, rfl, rfl, numeric⟩ := number_written h hw
    exact ⟨b, _, by rw [hcs, he]; simp, hb, .negative numeric⟩
  · rename_i rest he
    split at h
    · cases h
      simp [Value.isWhole] at hw
    · rename_i n
      split at h
      · rename_i hc
        cases h
        obtain ⟨gap, hgap, blanks⟩ := blanks_skipped rest
        rw [hc] at hgap
        exact ⟨b, _, by rw [hcs, he, hgap]; simp, hb, .noItems blanks⟩
      · obtain ⟨items, r₁, hread⟩ : ∃ items r₁, readItems n rest = (items, r₁) := ⟨_, _, rfl⟩
        rw [read_items_skipped, hread] at h
        cases h
        obtain ⟨t, rfl, inside⟩ := hi n rfl _ _ _ hread (by simpa [Value.isWhole] using hw)
        exact ⟨b, _, by rw [hcs, he]; simp, hb, .array inside⟩
  · rename_i rest he
    split at h
    · cases h
      simp [Value.isWhole] at hw
    · rename_i n
      split at h
      · rename_i hc
        cases h
        obtain ⟨gap, hgap, blanks⟩ := blanks_skipped rest
        rw [hc] at hgap
        exact ⟨b, _, by rw [hcs, he, hgap]; simp, hb, .noMembers blanks⟩
      · obtain ⟨members, r₁, hread⟩ : ∃ ms r₁, readMembers n rest = (ms, r₁) := ⟨_, _, rfl⟩
        rw [read_members_skipped, hread] at h
        cases h
        obtain ⟨t, rfl, inside⟩ := hm n rfl _ _ _ hread (by simpa [Value.isWhole] using hw)
        exact ⟨b, _, by rw [hcs, he]; simp, hb, .object inside⟩
  · obtain ⟨t, n, ht, rfl, numeric⟩ := number_written h hw
    rw [ht] at hcs
    exact ⟨b, t, by simpa using hcs, hb, .number numeric⟩

theorem items_written (hv : ValuesWritten fuel) (hi : ItemsWritten fuel) :
    ItemsWritten (fuel + 1) := by
  intro cs items r h hw
  rw [readItems] at h
  obtain ⟨item, r₁, hread⟩ : ∃ v r₁, readValue fuel cs = (v, r₁) := ⟨_, _, rfl⟩
  simp only [hread] at h
  obtain ⟨b', hb', after⟩ := blanks_skipped r₁
  split at h
  · rename_i hc
    cases h
    obtain ⟨b, t, rfl, before, value⟩ := hv _ _ _ hread (by simpa [Items.isWhole] using hw)
    exact ⟨b ++ t ++ b', by rw [hb', hc]; simp, .last before value after⟩
  · rename_i r₂ hc
    obtain ⟨rest, r₃, hrest⟩ : ∃ items r₃, readItems fuel r₂ = (items, r₃) := ⟨_, _, rfl⟩
    simp only [hrest, Prod.mk.injEq] at h
    obtain ⟨rfl, rfl⟩ := h
    simp only [Items.isWhole, Bool.and_eq_true] at hw
    obtain ⟨b, t, rfl, before, value⟩ := hv _ _ _ hread hw.1
    obtain ⟨u, rfl, others⟩ := hi _ _ _ hrest hw.2
    exact ⟨b ++ t ++ b' ++ ',' :: u, by rw [hb', hc]; simp, .more before value after others⟩
  · cases h
    simp [Items.isWhole] at hw

theorem members_written (hv : ValuesWritten fuel) (hm : MembersWritten fuel) :
    MembersWritten (fuel + 1) := by
  intro cs members r h hw
  rw [readMembers] at h
  obtain ⟨b, hb, before⟩ := blanks_skipped cs
  split at h
  · rename_i rest hq
    split at h
    · rename_i name r₁ hs
      obtain ⟨raw, rfl, named⟩ := read_string_iff.mp hs
      obtain ⟨b', hb', after⟩ := blanks_skipped r₁
      split at h
      · rename_i r₂ hc
        obtain ⟨v, r₃, hread⟩ : ∃ v r₃, readValue fuel r₂ = (v, r₃) := ⟨_, _, rfl⟩
        simp only [hread] at h
        obtain ⟨c', hc', closing⟩ := blanks_skipped r₃
        split at h
        · rename_i hd
          cases h
          obtain ⟨c, t, rfl, opening, value⟩ := hv _ _ _ hread (by simpa [Members.isWhole] using hw)
          exact ⟨_, by rw [hb, hq, hb', hc, hc', hd]; simp,
            .last before named after opening value closing⟩
        · rename_i r₄ hd
          obtain ⟨others, r₅, hrest⟩ : ∃ ms r₅, readMembers fuel r₄ = (ms, r₅) := ⟨_, _, rfl⟩
          simp only [hrest, Prod.mk.injEq] at h
          obtain ⟨rfl, rfl⟩ := h
          simp only [Members.isWhole, Bool.and_eq_true] at hw
          obtain ⟨c, t, rfl, opening, value⟩ := hv _ _ _ hread hw.1
          obtain ⟨u, rfl, inside⟩ := hm _ _ _ hrest hw.2
          exact ⟨_, by rw [hb, hq, hb', hc, hc', hd]; simp,
            .more before named after opening value closing inside⟩
        · cases h
          simp [Members.isWhole] at hw
      · cases h
        simp [Members.isWhole] at hw
    · cases h
      simp [Members.isWhole] at hw
  · cases h
    simp [Members.isWhole] at hw

theorem all_written (fuel : Nat) :
    ValuesWritten fuel ∧ ItemsWritten fuel ∧ MembersWritten fuel := by
  induction fuel with
  | zero =>
    refine ⟨values_written nofun nofun, ?_, ?_⟩
    · intro cs items r h hw
      rw [readItems] at h
      cases h
      simp [Items.isWhole] at hw
    · intro cs members r h hw
      rw [readMembers] at h
      cases h
      simp [Members.isWhole] at hw
  | succ fuel ih =>
    obtain ⟨hv, hi, hm⟩ := ih
    refine ⟨values_written ?_ ?_, items_written hv hi, members_written hv hm⟩
    · rintro n ⟨⟩
      exact hi
    · rintro n ⟨⟩
      exact hm

mutual

theorem value_whole {cs : List Char} {v : Value} : Writes cs v → v.isWhole = true
  | .null | .true | .false | .number _ | .negative _ | .string _ | .noItems _ | .noMembers _ => by
    simp [Value.isWhole, Items.isWhole, Members.isWhole]
  | .array inside => by
    rw [Value.isWhole]
    exact items_whole inside
  | .object inside => by
    rw [Value.isWhole]
    exact members_whole inside

theorem items_whole {cs : List Char} {items : Items} : WritesItems cs items → items.isWhole = true
  | .last _ item _ => by simp [Items.isWhole, value_whole item]
  | .more _ item _ others => by simp [Items.isWhole, value_whole item, items_whole others]

theorem members_whole {cs : List Char} {members : Members} :
    WritesMembers cs members → members.isWhole = true
  | .last _ _ _ _ value _ => by simp [Members.isWhole, value_whole value]
  | .more _ _ _ _ value _ others => by
    simp [Members.isWhole, value_whole value, members_whole others]

end

/-- A whole object is read from exactly the texts that the grammar writes it with. -/
theorem read_object_iff {text : String} {members : Members} :
    WritesObject text.toList members ↔
      (Json.read text).value = .object members ∧ members.isWhole = true ∧
        (Json.read text).trailing = false := by
  obtain ⟨v, r, hread⟩ : ∃ v r, readValue (text.toList.length + 1) text.toList = (v, r) :=
    ⟨_, _, rfl⟩
  have hdoc : Json.read text = ⟨v, !(skipSpace r).isEmpty⟩ := by simp only [Json.read, hread]
  constructor
  · rintro ⟨b, t, b', hcs, before, value, after⟩
    have hr := (all_read (text.toList.length + 1)).1 b t _ b' before value
      (fun c hc => .inl (after c (List.mem_of_mem_head? hc))) (by rw [hcs]; simp; omega)
    rw [← hcs, hread] at hr
    cases hr
    have hskip : skipSpace r = [] := by simpa using skip_blanks (r := []) after (by simp)
    exact ⟨by rw [hdoc], by simpa [Value.isWhole] using value_whole value, by simp [hdoc, hskip]⟩
  · rintro ⟨hv, hw, htrailing⟩
    simp only [hdoc] at hv htrailing
    subst hv
    obtain ⟨b, t, hcs, before, value⟩ :=
      (all_written (text.toList.length + 1)).1 _ _ _ hread (by simpa [Value.isWhole] using hw)
    obtain ⟨b', hb', after⟩ := blanks_skipped r
    have hskip : skipSpace r = [] := by simpa using htrailing
    rw [hskip, List.append_nil] at hb'
    exact ⟨b, t, r, hcs, before, value, hb' ▸ after⟩

end PodConsole.Proofs.JsonReading
