import PodConsole.Proofs.Toml.Numbers
import PodConsole.Proofs.Toml.Strings
import PodConsole.Toml.Reader
import Mathlib.Data.List.Forall2

namespace PodConsole.Proofs.TomlLines
open Toml TomlStrings TomlNumbers DecimalDigits

theorem skip_gap_none {cs : List Char} (no_space : ∀ r, cs ≠ ' ' :: r)
    (no_tab : ∀ r, cs ≠ '\t' :: r) : skipGap cs = cs := by
  cases cs with
  | nil => rfl
  | cons c r =>
    have hspace : c ≠ ' ' := fun h => no_space r (by rw [h])
    have htab : c ≠ '\t' := fun h => no_tab r (by rw [h])
    exact List.dropWhile_cons_of_neg (by simp [isGap, hspace, htab])

/-- A name that is a key as it stands. -/
def Bare (name : String) : Prop :=
  name.toList ≠ [] ∧ name.toList.all isBare = true

namespace Bare
variable {name : String}

theorem all (bare : Bare name) : ∀ c ∈ name.toList, isBare c = true :=
  List.all_eq_true.mp bare.2

theorem head (bare : Bare name) (r : List Char) :
    ∃ c cs, name.toList ++ r = c :: cs ∧ isBare c = true := by
  obtain ⟨c, cs, h⟩ := List.exists_cons_of_ne_nil bare.1
  exact ⟨c, cs ++ r, by rw [h, List.cons_append], bare.all c (by simp [h])⟩

theorem head_ne (bare : Bare name) {c : Char} (other : isBare c = false) (r r' : List Char) :
    name.toList ++ r ≠ c :: r' := by
  obtain ⟨d, cs, h, hd⟩ := bare.head r
  rw [h]
  intro heq
  obtain ⟨rfl, -⟩ := List.cons.inj heq
  rw [hd] at other
  cases other

theorem skip_gap (bare : Bare name) (r : List Char) :
    skipGap (name.toList ++ r) = name.toList ++ r :=
  skip_gap_none (bare.head_ne (by decide) r) (bare.head_ne (by decide) r)

theorem read_name (bare : Bare name) {c : Char} (stop : isBare c = false) (r : List Char) :
    readName (name.toList ++ c :: r) = some (name, c :: r) := by
  have hname : (name.toList ++ c :: r).takeWhile isBare = name.toList := by
    rw [List.takeWhile_append_of_pos bare.all, List.takeWhile_cons_of_neg (by simp [stop]),
      List.append_nil]
  have hrest : (name.toList ++ c :: r).dropWhile isBare = c :: r := by
    rw [List.dropWhile_append_of_pos bare.all, List.dropWhile_cons_of_neg (by simp [stop])]
  rw [readName.eq_3 _ (bare.head_ne (by decide) _) (bare.head_ne (by decide) _), hname, hrest,
    if_neg (by simpa using bare.1), String.ofList_toList]

/-- A sole name is a whole path, with the blanks behind it. -/
theorem read_path (bare : Bare name) {c d : Char} {r r' : List Char} (stop : isBare c = false)
    (blanks : skipGap (c :: r) = d :: r') (no_dot : d ≠ '.') :
    ∃ stretch, ∀ fuel > 0,
      readPath fuel (name.toList ++ c :: r) = some (([], ⟨name, stretch⟩), d :: r') := by
  refine ⟨.between (name.toList ++ c :: r) (c :: r), ?_⟩
  rintro (_ | fuel) hpos
  · cases hpos
  simp [readPath, bare.skip_gap, readKey, bare.read_name stop, blanks, no_dot]

end Bare

/-- Where a line ends behind it, this value is read as this scalar. -/
def Denotes (value : String) (scalar : Scalar) : Prop :=
  ∀ r, ∃ stretch, ∀ fuel depth,
    readNode (fuel + 1) depth (skipGap (value.toList ++ '\n' :: r)) =
      some (.scalar scalar stretch, '\n' :: r)

theorem quoted_head (style : Style) (cs : List Char) :
    ∃ q r, quoteWith style cs = q :: r ∧ (q = '"' ∨ q = '\'') := by
  cases style with
  | basic => exact ⟨'"', _, rfl, .inl rfl⟩
  | literal => exact ⟨'\'', _, rfl, .inr rfl⟩
  | basicLines => exact ⟨'"', _, rfl, .inl rfl⟩
  | literalLines => exact ⟨'\'', _, rfl, .inr rfl⟩

theorem denotes_quote (text : String) : Denotes (Toml.quote text) (.text text) := by
  intro r
  obtain ⟨q, rest, hquote, hq⟩ := quoted_head (.of text.toList) text.toList
  have hhead : (Toml.quote text).toList ++ '\n' :: r = q :: (rest ++ '\n' :: r) := by
    rw [Toml.quote, String.toList_ofList, hquote, List.cons_append]
  have hread := @read_quote text ('\n' :: r) ⟨by simp, by simp⟩
  rw [hhead] at hread ⊢
  refine ⟨.between (q :: (rest ++ '\n' :: r)) ('\n' :: r), fun fuel depth => ?_⟩
  rcases hq with rfl | rfl <;> rw [skip_gap_none (by simp) (by simp)] <;> simp [readNode, hread]

theorem denotes_number {n : Nat} (fits : n ≤ Decimal.maxSigned) :
    Denotes (toString n) (.integer n) := by
  intro r
  have hstops : Stops ('\n' :: r) := by
    intro c r' h
    obtain ⟨rfl, -⟩ := List.cons.inj h
    exact ⟨by decide, by decide⟩
  have hhead := @(written_digits n hstops).head_ne
  have hread := read_number fits hstops
  have htext : (toString n).toList = Nat.toDigits 10 n := by simp
  rw [htext, skip_gap_none (hhead (by decide)) (hhead (by decide))]
  refine ⟨.between (Nat.toDigits 10 n ++ '\n' :: r) ('\n' :: r), fun fuel depth => ?_⟩
  rw [readNode.eq_8 _ _ _ (hhead (by decide)) (hhead (by decide)) (hhead (by decide))
    (hhead (by decide)), hread]
  rfl

/-- The statements a text is read as; every line takes fuel, and so many are no more than
characters. -/
def Reads (cs : List Char) (ss : List Statement) : Prop :=
  ∀ fuel, cs.length < fuel → readStatements fuel cs = some ss

/-- A section's name and its pairs. -/
abbrev Section (α : Type) := String × List (String × α)

/-- The header of a section. -/
def Heads (name : String) (s : Statement) : Prop :=
  ∃ named stretch, s = .header [] ⟨name, named⟩ false stretch

/-- A pair's binding. -/
def Binds (pair : String × Scalar) (s : Statement) : Prop :=
  ∃ named stretch, s = .binding [] ⟨pair.1, named⟩ (.scalar pair.2 stretch)

/-- Statements that are these sections: each its header, then its pairs. -/
inductive Tells : List (Section Scalar) → List Statement → Prop where
  | nil : Tells [] []
  | cons {name : String} {pairs : List (String × Scalar)} {rest : List (Section Scalar)}
      {s : Statement} {bs ss : List Statement} (head : Heads name s)
      (body : List.Forall₂ Binds pairs bs) (more : Tells rest ss) :
      Tells ((name, pairs) :: rest) (s :: (bs ++ ss))

theorem read_header {name : String} (bare : Bare name) (r : List Char) :
    ∃ s, Heads name s ∧ readHeader ('[' :: (name.toList ++ ']' :: r)) = some (s, r) := by
  have hclose : skipGap (']' :: r) = ']' :: r := skip_gap_none (by simp) (by simp)
  obtain ⟨named, hpath⟩ := bare.read_path (by decide) hclose (by decide)
  refine ⟨_, ⟨named, .between ('[' :: (name.toList ++ ']' :: r)) r, rfl⟩, ?_⟩
  rw [readHeader.eq_2 _ (bare.head_ne (by decide) _), hpath _ (by decide)]
  rfl

theorem read_binding {key value : String} {scalar : Scalar} (bare : Bare key)
    (denotes : Denotes value scalar) (r : List Char) :
    ∃ s, Binds (key, scalar) s ∧ ∀ fuel,
      readBinding (fuel + 1) (key.toList ++ ' ' :: '=' :: ' ' :: (value.toList ++ '\n' :: r)) =
        some (s, '\n' :: r) := by
  obtain ⟨stretch, hnode⟩ := denotes r
  have hequals (r : List Char) : skipGap (' ' :: '=' :: r) = '=' :: r := by
    simp [skipGap, isGap]
  have hspace (r : List Char) : skipGap (' ' :: r) = skipGap r := by
    simp [skipGap, isGap]
  obtain ⟨named, hpath⟩ :=
    bare.read_path (by decide) (hequals (' ' :: (value.toList ++ '\n' :: r))) (by decide)
  refine ⟨_, ⟨named, stretch, rfl⟩, fun fuel => ?_⟩
  rw [readBinding, hpath _ (by decide)]
  simp [expect, hspace, hnode]

theorem read_line_rest (r : List Char) : readLineRest ('\n' :: r) = some ((), r) := by
  simp [readLineRest, skip_gap_none, skipComment, readLineEnd]

theorem reads_nil : Reads [] [] := by
  rintro (_ | fuel) h
  · cases h
  · rfl

section
variable {r : List Char} {ss : List Statement}

theorem reads_blank (rest : Reads r ss) : Reads ('\n' :: r) ss := by
  rintro (_ | fuel) h
  · cases h
  · have hrest := rest fuel (by simpa using h)
    simp [readStatements, skip_gap_none, read_line_rest, hrest]

theorem reads_header {name : String} (bare : Bare name) (rest : Reads r ss) :
    ∃ s, Heads name s ∧ Reads ('[' :: (name.toList ++ ']' :: '\n' :: r)) (s :: ss) := by
  obtain ⟨s, heads, hheader⟩ := read_header bare ('\n' :: r)
  refine ⟨s, heads, ?_⟩
  rintro (_ | fuel) h
  · cases h
  · have hrest := rest fuel (by simp at h; omega)
    simp [readStatements, skip_gap_none, hheader, read_line_rest, hrest]

theorem reads_binding {key value : String} {scalar : Scalar} (bare : Bare key)
    (denotes : Denotes value scalar) (rest : Reads r ss) :
    ∃ s, Binds (key, scalar) s ∧
      Reads (key.toList ++ ' ' :: '=' :: ' ' :: (value.toList ++ '\n' :: r)) (s :: ss) := by
  obtain ⟨s, binds, hbinding⟩ := read_binding bare denotes r
  refine ⟨s, binds, ?_⟩
  rintro (_ | _ | fuel) h
  · cases h
  · simp at h
  · have hrest := rest (fuel + 1) (by simp at h; omega)
    have hread := hbinding fuel
    obtain ⟨c, cs, hline, hc⟩ := bare.head (' ' :: '=' :: ' ' :: (value.toList ++ '\n' :: r))
    have hskip := bare.skip_gap (' ' :: '=' :: ' ' :: (value.toList ++ '\n' :: r))
    have hother (d : Char) (other : isBare d = false) : c ≠ d := by
      rintro rfl
      exact absurd hc (by simp [other])
    rw [hline] at hread hskip ⊢
    rw [readStatements, hskip]
    simp [hother '[' (by decide), hother '#' (by decide), hother '\n' (by decide),
      hother '\r' (by decide), hread, read_line_rest, hrest]

end

/-- A pair written with a value that is read as the scalar. -/
def Writes (written : String × String) (meant : String × Scalar) : Prop :=
  written.1 = meant.1 ∧ Bare meant.1 ∧ Denotes written.2 meant.2

def WritesSection (written : Section String) (meant : Section Scalar) : Prop :=
  written.1 = meant.1 ∧ Bare meant.1 ∧ List.Forall₂ Writes written.2 meant.2

def line (pair : String × String) : List Char :=
  pair.1.toList ++ ' ' :: '=' :: ' ' :: (pair.2.toList ++ ['\n'])

theorem write_section_lines (name : String) (pairs : List (String × String)) :
    (writeSection name pairs).toList =
      '[' :: (name.toList ++ ']' :: '\n' :: pairs.flatMap line) := by
  have hline : line = fun pair =>
      pair.1.toList ++ ' ' :: '=' :: ' ' :: (pair.2.toList ++ ['\n']) := rfl
  simp [writeSection, hline, List.flatMap_map]

def writeSections (sections : List (Section String)) : String :=
  "\n".intercalate (sections.map fun (name, pairs) => writeSection name pairs)

theorem write_sections_head {sections : List (Section String)} {c : Char} {r : List Char}
    (h : (writeSections sections).toList = c :: r) : c = '[' := by
  match sections with
  | [] => simp [writeSections] at h
  | [(name, pairs)] =>
    simp only [writeSections, List.map_cons, List.map_nil, String.intercalate_singleton,
      write_section_lines] at h
    exact (List.cons.inj h).1.symm
  | (name, pairs) :: next :: rest =>
    simp only [writeSections, List.map_cons, String.intercalate_cons_cons, String.toList_append,
      write_section_lines, List.cons_append] at h
    exact (List.cons.inj h).1.symm

section
variable {r : List Char} {ss : List Statement}

theorem reads_pairs {written : List (String × String)} {meant : List (String × Scalar)}
    (h : List.Forall₂ Writes written meant) (rest : Reads r ss) :
    ∃ bs, List.Forall₂ Binds meant bs ∧ Reads (written.flatMap line ++ r) (bs ++ ss) := by
  induction h with
  | nil => exact ⟨[], .nil, rest⟩
  | @cons pair field pairs fields hpair _ ih =>
    obtain ⟨key, value⟩ := pair
    obtain ⟨rfl, bare, denotes⟩ := hpair
    obtain ⟨bs, hbs, hrest⟩ := ih
    obtain ⟨b, hb, hread⟩ := reads_binding bare denotes hrest
    exact ⟨b :: bs, .cons hb hbs, by simpa [line] using hread⟩

theorem reads_section {written : Section String} {meant : Section Scalar}
    (h : WritesSection written meant) (rest : Reads r ss) :
    ∃ s bs, Heads meant.1 s ∧ List.Forall₂ Binds meant.2 bs ∧
      Reads ((writeSection written.1 written.2).toList ++ r) (s :: (bs ++ ss)) := by
  obtain ⟨hname, bare, hpairs⟩ := h
  obtain ⟨bs, hbs, hrest⟩ := reads_pairs hpairs rest
  obtain ⟨s, hs, hread⟩ := reads_header bare hrest
  exact ⟨s, bs, hs, hbs, by simpa [write_section_lines, hname] using hread⟩

end

section
variable {written : List (Section String)} {meant : List (Section Scalar)}

theorem reads_sections (h : List.Forall₂ WritesSection written meant) :
    ∃ ss, Tells meant ss ∧ Reads (writeSections written).toList ss := by
  induction h with
  | nil => exact ⟨[], .nil, reads_nil⟩
  | cons hsection hmore ih =>
    obtain ⟨ss, htells, hrest⟩ := ih
    cases hmore with
    | nil =>
      cases htells
      obtain ⟨s, bs, hs, hbs, hread⟩ := reads_section hsection reads_nil
      exact ⟨_, .cons hs hbs .nil, by simpa [writeSections] using hread⟩
    | cons hnext hmore =>
      obtain ⟨s, bs, hs, hbs, hread⟩ := reads_section hsection (reads_blank hrest)
      refine ⟨_, .cons hs hbs htells, ?_⟩
      simpa [writeSections, String.intercalate_cons_cons] using hread

/-- Written sections are read as their statements. -/
theorem statements_sections (h : List.Forall₂ WritesSection written meant) :
    ∃ ss, Tells meant ss ∧ statements (writeSections written) = some ss := by
  obtain ⟨ss, htells, hread⟩ := reads_sections h
  refine ⟨ss, htells, ?_⟩
  unfold statements
  split
  · rename_i hmark
    exact absurd (write_sections_head hmark) (by decide)
  · exact hread _ (by omega)

end
end PodConsole.Proofs.TomlLines
