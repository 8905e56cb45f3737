import PodConsole.Proofs.Toml.Lines
import PodConsole.Toml.Document

namespace PodConsole.Proofs.TomlSections
open Toml TomlLines

def Fresh (name : String) (entries : List (Key × Node)) : Prop :=
  ∀ e ∈ entries, e.1.name ≠ name

section
variable {t : Table}

theorem find_fresh {name : String} (fresh : Fresh name t.entries) : t.find? name = none := by
  have : t.entries.find? (fun e => e.1.name = name) = none :=
    List.find?_eq_none.mpr fun e he => by simpa using fresh e he
  rw [Table.find?, this, Option.map_none]

theorem bind_new_fresh (key : Key) (fresh : Fresh key.name t.entries) (node : Node) :
    t.bindNew key node = some { t with entries := t.entries ++ [(key, node)] } := by
  have hany : ¬ t.entries.any (fun e => e.1.name = key.name) = true := by
    simpa [Fresh] using fresh
  simp only [Table.bindNew, find_fresh fresh, Table.put, if_neg hany]
  rfl

end

/-- An entry under the name that is meant, its node as it should be. -/
def Entry {α : Type} (R : α → Node → Prop) (meant : String × α) (entry : Key × Node) : Prop :=
  entry.1.name = meant.1 ∧ R meant.2 entry.2

def IsScalar (scalar : Scalar) (node : Node) : Prop :=
  ∃ stretch, node = .scalar scalar stretch

def IsTable (pairs : List (String × Scalar)) (node : Node) : Prop :=
  ∃ form stretch entries, node = .table form stretch entries ∧
    List.Forall₂ (Entry IsScalar) pairs entries

theorem fresh_entries {α : Type} {R : α → Node → Prop} {meant : List (String × α)}
    {entries : List (Key × Node)} (h : List.Forall₂ (Entry R) meant entries) {name : String}
    (other : name ∉ meant.map (·.1)) : Fresh name entries := by
  induction h with
  | nil => exact nofun
  | cons hentry _ ih =>
    rw [List.map_cons, List.mem_cons, not_or] at other
    refine List.forall_mem_cons.mpr ⟨?_, ih other.2⟩
    rw [hentry.1]
    exact Ne.symm other.1

theorem not_mem_of_nodup {α : Type} {done rest : List (String × α)} {next : String × α}
    (h : ((done ++ next :: rest).map (·.1)).Nodup) : next.1 ∉ done.map (·.1) := by
  rw [List.map_append, List.nodup_append] at h
  intro hmem
  exact h.2.2 _ hmem _ (by simp) rfl

/-- A draft in which nothing but the table under construction may differ, and which has these
entries there. -/
structure Filled (d d' : Draft) (meant : List (String × Scalar)) : Prop where
  root : d'.root = d.root
  place : d'.place = d.place
  entries : List.Forall₂ (Entry IsScalar) meant d'.current.entries

theorem bind_one {d : Draft} {done : List (String × Scalar)} {pair : String × Scalar}
    {s : Statement} (held : List.Forall₂ (Entry IsScalar) done d.current.entries)
    (other : pair.1 ∉ done.map (·.1)) (binds : Binds pair s) :
    ∃ d', d.add s = some d' ∧ Filled d d' (done ++ [pair]) := by
  obtain ⟨named, stretch, rfl⟩ := binds
  have hfresh : Fresh pair.1 d.current.entries := fresh_entries held other
  have hnew : d.current.bind [] ⟨pair.1, named⟩ (.scalar pair.2 stretch) =
      some { d.current with
        entries := d.current.entries ++ [(⟨pair.1, named⟩, .scalar pair.2 stretch)] } := by
    simp [Table.bind, Table.within, bind_new_fresh ⟨pair.1, named⟩ hfresh]
  simp only [Draft.add, Draft.bind, hnew]
  refine ⟨_, rfl, rfl, rfl, ?_⟩
  exact List.rel_append held (.cons ⟨rfl, stretch, rfl⟩ .nil)

theorem bind_pairs {pairs : List (String × Scalar)} {bs : List Statement}
    (h : List.Forall₂ Binds pairs bs) {d : Draft} {done : List (String × Scalar)}
    (held : List.Forall₂ (Entry IsScalar) done d.current.entries)
    (distinct : ((done ++ pairs).map (·.1)).Nodup) :
    ∃ d', bs.foldlM Draft.add d = some d' ∧ Filled d d' (done ++ pairs) := by
  induction h generalizing d done with
  | nil => exact ⟨d, rfl, rfl, rfl, by simpa using held⟩
  | @cons pair s pairs bs hbinds _ ih =>
    obtain ⟨d₁, hadd, hroot, hplace, hheld⟩ := bind_one held (not_mem_of_nodup distinct) hbinds
    obtain ⟨d₂, hrest, hroot', hplace', hheld'⟩ := ih hheld (by simpa using distinct)
    refine ⟨d₂, ?_, hroot'.trans hroot, hplace'.trans hplace, by simpa using hheld'⟩
    rw [List.foldlM_cons, hadd]
    exact hrest

theorem start_fresh {d : Draft} {root : Table} {key : Key} (finished : d.finish = some root)
    (fresh : Fresh key.name root.entries) (stretch : Stretch) :
    d.start [] key false stretch =
      some ⟨root, some ([], key, false), ⟨.header, some stretch, []⟩⟩ := by
  simp [Draft.start, finished, Table.descend, Table.within, Draft.claim, find_fresh fresh]

theorem finish_fresh {d : Draft} {key : Key} (place : d.place = some ([], key, false))
    (fresh : Fresh key.name d.root.entries) :
    d.finish = some { d.root with entries := d.root.entries ++ [(key, d.current.node)] } := by
  simp [Draft.finish, place, Table.descend, Table.within, bind_new_fresh key fresh]

/-- Sections are added behind those that the draft holds when it is finished. -/
theorem add_sections {meant : List (Section Scalar)} {ss : List Statement} (h : Tells meant ss)
    {d : Draft} {root : Table} {done : List (Section Scalar)} (finished : d.finish = some root)
    (held : List.Forall₂ (Entry IsTable) done root.entries)
    (distinct : ((done ++ meant).map (·.1)).Nodup)
    (distinct_keys : ∀ sec ∈ meant, (sec.2.map (·.1)).Nodup) :
    ∃ d' root', ss.foldlM Draft.add d = some d' ∧ d'.finish = some root' ∧
      List.Forall₂ (Entry IsTable) (done ++ meant) root'.entries := by
  -- the last table is not in the tree yet, so what is held is what finishing would give
  induction h generalizing d root done with
  | nil => exact ⟨d, root, rfl, finished, by simpa using held⟩
  | @cons name pairs rest s bs ss hheads hbinds _ ih =>
    obtain ⟨named, stretch, rfl⟩ := hheads
    have hfresh : Fresh name root.entries := fresh_entries held (not_mem_of_nodup distinct)
    obtain ⟨hkeys, hmore⟩ := List.forall_mem_cons.mp distinct_keys
    have hstart : d.start [] ⟨name, named⟩ false stretch = _ := start_fresh finished hfresh stretch
    obtain ⟨d₁, hfill, hroot, hplace, hentries⟩ := bind_pairs hbinds
      (d := ⟨root, some ([], ⟨name, named⟩, false), ⟨.header, some stretch, []⟩⟩) .nil hkeys
    have hfinish := finish_fresh hplace (by rw [hroot]; exact hfresh)
    have hheld : List.Forall₂ (Entry IsTable) (done ++ [(name, pairs)])
        (d₁.root.entries ++ [(⟨name, named⟩, d₁.current.node)]) := by
      rw [hroot]
      exact List.rel_append held (.cons ⟨rfl, _, _, _, rfl, hentries⟩ .nil)
    obtain ⟨d₂, root₂, hrest, hdone, hall⟩ := ih hfinish hheld (by simpa using distinct) hmore
    refine ⟨d₂, root₂, ?_, hdone, by simpa using hall⟩
    simp [Draft.add, hstart, hfill, hrest]

/-- Written sections are read back, each with its pairs. -/
theorem read_sections {written : List (Section String)} {meant : List (Section Scalar)}
    (h : List.Forall₂ WritesSection written meant) (distinct : (meant.map (·.1)).Nodup)
    (distinct_keys : ∀ sec ∈ meant, (sec.2.map (·.1)).Nodup) :
    ∃ doc, Document.read? (writeSections written) = some doc ∧
      List.Forall₂ (Entry IsTable) meant doc := by
  obtain ⟨ss, htells, hread⟩ := statements_sections h
  obtain ⟨d, root, hfold, hfinish, hheld⟩ :=
    add_sections htells (d := {}) rfl (show List.Forall₂ (Entry IsTable) [] [] from .nil) distinct
      distinct_keys
  refine ⟨root.entries, ?_, hheld⟩
  simp [Document.read?, hread, Document.ofStatements?, hfold, hfinish]

end PodConsole.Proofs.TomlSections
