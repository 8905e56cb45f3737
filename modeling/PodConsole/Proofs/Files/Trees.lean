import PodConsole.Files.Tree

namespace PodConsole.Proofs.Trees
open Files Files.Tree
open Text (Bytes)

variable {t t' t'' : Tree} {l other way done rest : Location} {content : Bytes}

theorem ne_root (h : t.find? l ≠ some .directory) : l ≠ [] := by
  rintro rfl
  exact h rfl

theorem find_put (h : l ≠ []) (e : Entry) (other : Location) :
    (t.put l e).find? other = if other = l then some e else t.find? other := by
  by_cases hroot : other = []
  · rw [hroot, if_neg (Ne.symm h)]
    rfl
  · have hempty : other.isEmpty = false := by simpa using hroot
    simp only [find?, put, hempty, Bool.false_eq_true, if_false, List.find?_cons,
      List.find?_filter]
    by_cases hl : other = l
    · simp [hl]
    · have hne : ¬ l = other := fun he => hl he.symm
      simp only [hl, hne, decide_false, if_false]
      congr 2
      funext old
      by_cases ho : old.1 = other
      · simp [ho, hl]
      · simp [ho]

/-- A tree has all that another has, and directories on a way that were missing there. -/
def Grown (way : Location) (t t' : Tree) : Prop :=
  ∀ l, t'.find? l = t.find? l ∨
    t.find? l = none ∧ t'.find? l = some .directory ∧ l <+: way

theorem Grown.refl (way : Location) (t : Tree) : Grown way t t :=
  fun _ => .inl rfl

theorem Grown.trans (h : Grown way t t') (h' : Grown way t' t'') : Grown way t t'' := by
  intro l
  obtain hl | ⟨hnone, hmade, hway⟩ := h' l
  · rw [hl]
    exact h l
  · obtain hl | ⟨hnone', hmade', -⟩ := h l
    · exact .inr ⟨hl ▸ hnone, hmade, hway⟩
    · rw [hmade'] at hnone
      cases hnone

theorem Grown.aside (h : Grown way t t') (hl : ¬ l <+: way) : t'.find? l = t.find? l := by
  obtain hsame | ⟨-, -, hway⟩ := h l
  · exact hsame
  · exact (hl hway).elim

/-- Files are neither made nor changed nor lost. -/
theorem Grown.file (h : Grown way t t') :
    t'.find? l = some (.file content) ↔ t.find? l = some (.file content) := by
  obtain hsame | ⟨hnone, hmade, -⟩ := h l
  · rw [hsame]
  · simp [hnone, hmade]

/-- What is at the end of the way stays as well. -/
theorem Grown.beyond (h : Grown l.dropLast t t') : t'.find? l = t.find? l := by
  by_cases hroot : l = []
  · rw [hroot]
    rfl
  · refine h.aside fun hprefix => ?_
    have hlength := hprefix.length_le
    have hpos := List.length_pos_iff.mpr hroot
    rw [List.length_dropLast] at hlength
    omega

/-- No file is in the way. -/
def Clear (t : Tree) (way : Location) : Prop :=
  ∀ l content, l <+: way → t.find? l ≠ some (.file content)

theorem put_grown (h : t.find? l = none) (hway : l <+: way) :
    Grown way t (t.put l .directory) := by
  have hroot : l ≠ [] := ne_root (t := t) (by simp [h])
  intro other
  rw [find_put hroot]
  by_cases ho : other = l
  · rw [if_pos ho, ho]
    exact .inr ⟨h, rfl, hway⟩
  · exact .inl (if_neg ho)

theorem make_from_grown (t : Tree) (done rest : Location) :
    Grown (done ++ rest) t (t.makeDirectoriesFrom done rest).2 := by
  induction rest generalizing t done with
  | nil => exact .refl _ t
  | cons name rest ih =>
    rw [List.append_cons]
    rw [makeDirectoriesFrom]
    split
    · exact ih t (done ++ [name])
    · exact .refl _ t
    · rename_i hnone
      exact (put_grown hnone ⟨rest, rfl⟩).trans (ih _ (done ++ [name]))

/-- No file is in the way from some directory on. -/
def ClearFrom (t : Tree) (done rest : Location) : Prop :=
  ∀ l content, l ≠ [] → l <+: rest → t.find? (done ++ l) ≠ some (.file content)

theorem clear_from_cons {name : String} :
    ClearFrom t done (name :: rest) ↔
      (∀ content, t.find? (done ++ [name]) ≠ some (.file content)) ∧
        ClearFrom t (done ++ [name]) rest := by
  constructor
  · intro h
    refine ⟨fun content => h [name] content (by simp) ⟨rest, rfl⟩, ?_⟩
    intro l content _ hl
    rw [← List.append_cons]
    exact h (name :: l) content (by simp) (List.cons_prefix_cons.mpr ⟨rfl, hl⟩)
  · rintro ⟨hname, hrest⟩ l content hl hprefix
    cases l with
    | nil => exact (hl rfl).elim
    | cons first l =>
      obtain ⟨rfl, htail⟩ := List.cons_prefix_cons.mp hprefix
      cases l with
      | nil => exact hname content
      | cons second l =>
        rw [List.append_cons]
        exact hrest _ content (by simp) htail

/-- A directory that is made is in nobody's way. -/
theorem Grown.clear_from (h : Grown way t t') : ClearFrom t' done rest ↔ ClearFrom t done rest := by
  simp only [ClearFrom, ne_eq, h.file]

/-- The first file in the way stops it. -/
theorem make_from_iff (t : Tree) (done rest : Location) :
    (t.makeDirectoriesFrom done rest).1 = true ↔ ClearFrom t done rest := by
  induction rest generalizing t done with
  | nil =>
    refine iff_of_true rfl fun l content hl hprefix => ?_
    exact (hl (List.prefix_nil.mp hprefix)).elim
  | cons name rest ih =>
    rw [clear_from_cons, makeDirectoriesFrom]
    split
    · next hfound =>
      rw [ih]
      simp [hfound]
    · next hfound => simp [hfound]
    · next hfound =>
      have hgrown : Grown (done ++ [name]) t _ := put_grown hfound ⟨[], by simp⟩
      rw [ih, hgrown.clear_from]
      simp [hfound]

theorem make_from_made (h : (t.makeDirectoriesFrom done rest).1 = true)
    (hdone : t.find? done = some .directory) :
    (t.makeDirectoriesFrom done rest).2.find? (done ++ rest) = some .directory := by
  induction rest generalizing t done with
  | nil => simpa [makeDirectoriesFrom] using hdone
  | cons name rest ih =>
    rw [List.append_cons]
    rw [makeDirectoriesFrom] at h ⊢
    split at h
    · rename_i hfound
      exact ih h hfound
    · cases h
    · refine ih h ?_
      rw [find_put (by simp), if_pos rfl]

theorem make_grown (t : Tree) (way : Location) : Grown way t (t.makeDirectories way).2 :=
  make_from_grown t [] way

theorem make_iff (t : Tree) (way : Location) :
    (t.makeDirectories way).1 = true ↔ Clear t way := by
  rw [makeDirectories, make_from_iff]
  constructor
  · intro h l content hl
    cases l with
    | nil => simp [find?]
    | cons name l => exact h (name :: l) content (by simp) hl
  · intro h l content _ hl
    exact h l content hl

theorem make_made (h : (t.makeDirectories way).1 = true) :
    (t.makeDirectories way).2.find? way = some .directory :=
  make_from_made h rfl

theorem write_eq (t : Tree) (l : Location) (content : Bytes) :
    t.write? l content =
      if t.find? l ≠ some .directory ∧ t.find? l.dropLast = some .directory then
        some (t.put l (.file content))
      else none := by
  unfold write?
  split
  · rename_i h
    simp [h]
  · rename_i hparent hfree
    rw [if_pos ⟨fun he => hfree he, hparent⟩]
  · rename_i h
    rw [if_neg fun hboth => h hboth.2]

/-- A file that was written is there, and all else is as before. -/
theorem find_written (h : t.write? l content = some t') (other : Location) :
    t'.find? other = if other = l then some (.file content) else t.find? other := by
  rw [write_eq] at h
  split at h
  · rename_i hfree
    cases h
    exact find_put (ne_root hfree.1) _ other
  · cases h

inductive Change where
  | make (way : Location)
  | write (l : Location) (content : Bytes)

/-- A file that cannot be written stays as it was. -/
def Change.apply (t : Tree) : Change → Tree
  | .make way => (t.makeDirectories way).2
  | .write l content => (t.write? l content).getD t

def Change.Writes (l : Location) : Change → Prop
  | .make _ => False
  | .write place _ => place = l

def changed (t : Tree) (changes : List Change) : Tree :=
  changes.foldl Change.apply t

theorem Change.keeps {change : Change} (h : ¬ change.Writes l)
    (hfile : t.find? l = some (.file content)) :
    (change.apply t).find? l = some (.file content) := by
  cases change with
  | make way => exact (make_grown t way).file.mpr hfile
  | write place new =>
    cases hwrite : t.write? place new with
    | none => simpa [Change.apply, hwrite] using hfile
    | some t' =>
      simp only [Change.apply, hwrite, Option.getD_some]
      rw [find_written hwrite, if_neg fun he => h he.symm, hfile]

/-- A file stays until it is written again. -/
theorem changed_keeps {changes : List Change} (h : ∀ change ∈ changes, ¬ change.Writes l)
    (hfile : t.find? l = some (.file content)) :
    (changed t changes).find? l = some (.file content) := by
  induction changes generalizing t with
  | nil => exact hfile
  | cons change changes ih =>
    obtain ⟨hchange, hrest⟩ := List.forall_mem_cons.mp h
    exact ih hrest (Change.keeps hchange hfile)

end PodConsole.Proofs.Trees
