import Mathlib.Data.List.Nodup
import Mathlib.Data.Set.Lattice
import PodConsole.Toml.Document

namespace PodConsole.Proofs.TomlContents
open Toml

/-- Values, each with the names that lead to it. -/
abbrev Contents := Set (List String × Node)

def under (way : List String) (c : Contents) : Contents :=
  Set.image (fun b => (way ++ b.1, b.2)) c

theorem mem_under {way p : List String} {x : Node} {c : Contents} :
    (p, x) ∈ under way c ↔ ∃ q, p = way ++ q ∧ (q, x) ∈ c := by
  constructor
  · rintro ⟨⟨q, y⟩, held, same⟩
    cases same
    exact ⟨q, rfl, held⟩
  · rintro ⟨q, rfl, held⟩
    exact ⟨(q, x), held, rfl⟩

theorem under_nil (c : Contents) : under [] c = c :=
  Set.image_id c

theorem under_empty (way : List String) : under way ∅ = ∅ :=
  Set.image_empty _

theorem under_union (way : List String) (c c' : Contents) :
    under way (c ∪ c') = under way c ∪ under way c' :=
  Set.image_union ..

theorem under_under (way way' : List String) (c : Contents) :
    under way (under way' c) = under (way ++ way') c := by
  simp [under, Set.image_image]

/-- A value is bound as a whole; nothing in it has a name of its own in the document. -/
def IsValue : Node → Prop
  | .scalar _ _ | .array _ _ => True
  | .tables _ | .table _ _ _ => False

/-- A value in a node. The items of an array of tables have no names, so what they hold is at the
names that lead to the array. -/
inductive Holds : Node → List String → Node → Prop
  | value {n : Node} (whole : IsValue n) : Holds n [] n
  | entry {form : Form} {stretch : Option Stretch} {entries : List (Key × Node)} {e : Key × Node}
      {p : List String} {x : Node} (there : e ∈ entries) (inside : Holds e.2 p x) :
      Holds (.table form stretch entries) (e.1.name :: p) x
  | item {items : List Node} {n : Node} {p : List String} {x : Node} (there : n ∈ items)
      (inside : Holds n p x) : Holds (.tables items) p x

def held (n : Node) : Contents := {b | Holds n b.1 b.2}

def bound (entries : List (Key × Node)) : Contents :=
  ⋃ e ∈ entries, under [e.1.name] (held e.2)

theorem mem_bound {entries : List (Key × Node)} {p : List String} {x : Node} :
    (p, x) ∈ bound entries ↔ ∃ e ∈ entries, ∃ q, p = e.1.name :: q ∧ (q, x) ∈ held e.2 := by
  simp [bound, mem_under]

theorem held_value {n : Node} (whole : IsValue n) : held n = {([], n)} := by
  ext ⟨p, x⟩
  constructor
  · intro h
    cases h with
    | value => rfl
    | entry | item => cases whole
  · rintro ⟨⟩
    exact .value whole

theorem held_table (form : Form) (stretch : Option Stretch) (entries : List (Key × Node)) :
    held (.table form stretch entries) = bound entries := by
  ext ⟨p, x⟩
  rw [mem_bound]
  constructor
  · intro h
    cases h with
    | value whole => cases whole
    | entry there inside => exact ⟨_, there, _, rfl, inside⟩
  · rintro ⟨e, there, q, rfl, inside⟩
    exact .entry there inside

theorem held_tables (items : List Node) : held (.tables items) = ⋃ n ∈ items, held n := by
  ext ⟨p, x⟩
  simp only [Set.mem_iUnion]
  constructor
  · intro h
    cases h with
    | value whole => cases whole
    | item there inside => exact ⟨_, there, inside⟩
  · rintro ⟨n, there, inside⟩
    exact .item there inside

theorem held_more_tables (items : List Node) (n : Node) :
    held (.tables (items ++ [n])) = held (.tables items) ∪ held n := by
  simp only [held_tables, List.mem_append, List.mem_singleton, Set.iUnion_or,
    Set.iUnion_union_distrib, Set.iUnion_iUnion_eq_left]

theorem bound_nil : bound [] = ∅ := by
  simp [bound]

theorem bound_append (entries more : List (Key × Node)) :
    bound (entries ++ more) = bound entries ∪ bound more := by
  simp only [bound, List.mem_append, Set.iUnion_or, Set.iUnion_union_distrib]

theorem bound_singleton (e : Key × Node) : bound [e] = under [e.1.name] (held e.2) := by
  simp [bound]

inductive Tidy : Node → Prop
  | value {n : Node} (whole : IsValue n) : Tidy n
  | table {form : Form} {stretch : Option Stretch} {entries : List (Key × Node)}
      (distinct : (entries.map (·.1.name)).Nodup) (tidy : ∀ e ∈ entries, Tidy e.2) :
      Tidy (.table form stretch entries)
  | tables {items : List Node} (each : ∀ n ∈ items, ∃ t : Table, t.node = n)
      (tidy : ∀ n ∈ items, Tidy n) : Tidy (.tables items)

structure Neat (entries : List (Key × Node)) : Prop where
  distinct : (entries.map (·.1.name)).Nodup
  tidy : ∀ e ∈ entries, Tidy e.2

theorem neat_nil : Neat [] := ⟨.nil, by simp⟩

theorem tidy_table {form : Form} {stretch : Option Stretch} {entries : List (Key × Node)} :
    Tidy (.table form stretch entries) ↔ Neat entries := by
  constructor
  · intro h
    cases h with
    | value whole => cases whole
    | table distinct tidy => exact ⟨distinct, tidy⟩
  · intro h
    exact .table h.distinct h.tidy

theorem tidy_tables {items : List Node} (h : Tidy (.tables items)) :
    (∀ n ∈ items, ∃ t : Table, t.node = n) ∧ ∀ n ∈ items, Tidy n := by
  cases h with
  | value whole => cases whole
  | tables each tidy => exact ⟨each, tidy⟩

/-- Another table behind, or in place of the last. -/
theorem tidy_more_tables {items : List Node} {t : Table}
    (h : (∀ n ∈ items, ∃ t : Table, t.node = n) ∧ ∀ n ∈ items, Tidy n) (neat : Neat t.entries) :
    Tidy (.tables (items ++ [t.node])) := by
  refine .tables ?_ ?_
  · simpa [or_imp, forall_and] using h.1
  · simpa [or_imp, forall_and] using ⟨h.2, tidy_table.mpr neat⟩

section
variable {t : Table} {name : String} {n : Node}

theorem find_entry (h : t.find? name = some n) : ∃ key, (key, n) ∈ t.entries ∧ key.name = name := by
  obtain ⟨⟨key, n'⟩, hfind, rfl⟩ := Option.map_eq_some_iff.mp h
  exact ⟨key, List.mem_of_find?_eq_some hfind, by simpa using List.find?_some hfind⟩

theorem find_absent (h : t.find? name = none) : ∀ e ∈ t.entries, e.1.name ≠ name := by
  simpa [Table.find?] using h

theorem remove_absent (h : t.find? name = none) : t.remove name = t := by
  have hall : t.entries.filter (fun e => e.1.name ≠ name) = t.entries :=
    List.filter_eq_self.mpr fun e he => decide_eq_true (find_absent h e he)
  simp only [Table.remove, hall]

theorem bound_found (neat : Neat t.entries) (h : t.find? name = some n) :
    bound t.entries = bound (t.remove name).entries ∪ under [name] (held n) := by
  obtain ⟨key, hkey, rfl⟩ := find_entry h
  -- names are distinct, so the entry that was found is the only one of its name
  have only : ∀ e ∈ t.entries, e.1.name = key.name → e = (key, n) := fun e he same =>
    List.inj_on_of_nodup_map neat.distinct he hkey same
  ext ⟨p, x⟩
  simp only [Set.mem_union, mem_bound, mem_under, Table.remove, List.mem_filter, decide_eq_true_eq]
  constructor
  · rintro ⟨e, he, q, rfl, inside⟩
    by_cases same : e.1.name = key.name
    · cases only e he same
      exact .inr ⟨q, rfl, inside⟩
    · exact .inl ⟨e, ⟨he, same⟩, q, rfl, inside⟩
  · rintro (⟨e, ⟨he, _⟩, q, rfl, inside⟩ | ⟨q, rfl, inside⟩)
    · exact ⟨e, he, q, rfl, inside⟩
    · exact ⟨(key, n), hkey, q, rfl, inside⟩

theorem put_entries (t : Table) (key : Key) (n : Node) :
    (t.put key n).entries = t.entries ++ [(key, n)] ∧ t.find? key.name = none ∨
      (t.put key n).entries = t.entries.map (fun e => if e.1.name = key.name then (e.1, n) else e) ∧
        ∃ e ∈ t.entries, e.1.name = key.name := by
  by_cases there : t.entries.any fun e => e.1.name = key.name
  · exact .inr ⟨by simp [Table.put, there], by simpa using there⟩
  · exact .inl ⟨by simp [Table.put, there], by simpa [Table.find?] using there⟩

theorem bound_put (t : Table) (key : Key) (n : Node) :
    bound (t.put key n).entries = bound (t.remove key.name).entries ∪ under [key.name] (held n) := by
  obtain ⟨hput, absent⟩ | ⟨hput, old, hold, hname⟩ := put_entries t key n
  · rw [hput, remove_absent absent, bound_append, bound_singleton]
  · rw [hput]
    ext ⟨p, x⟩
    simp only [Set.mem_union, mem_bound, mem_under, Table.remove, List.mem_filter, List.mem_map,
      decide_eq_true_eq]
    constructor
    · rintro ⟨_, ⟨e, he, rfl⟩, q, rfl, inside⟩
      by_cases same : e.1.name = key.name
      · rw [if_pos same] at inside ⊢
        exact .inr ⟨q, by rw [same]; rfl, inside⟩
      · rw [if_neg same] at inside ⊢
        exact .inl ⟨e, ⟨he, same⟩, q, rfl, inside⟩
    · rintro (⟨e, ⟨he, other⟩, q, rfl, inside⟩ | ⟨q, rfl, inside⟩)
      · exact ⟨e, ⟨e, he, if_neg other⟩, q, rfl, inside⟩
      · exact ⟨(old.1, n), ⟨old, hold, if_pos hname⟩, q, by rw [hname]; rfl, inside⟩

theorem neat_put {key : Key} (neat : Neat t.entries) (tidy : Tidy n) :
    Neat (t.put key n).entries := by
  obtain ⟨hput, absent⟩ | ⟨hput, _⟩ := put_entries t key n
  · rw [hput]
    refine ⟨?_, ?_⟩
    · rw [List.map_append, List.nodup_append]
      refine ⟨neat.distinct, List.nodup_singleton _, ?_⟩
      simp only [List.map_cons, List.map_nil, List.mem_singleton, forall_eq, List.forall_mem_map]
      exact find_absent absent
    · simpa [or_imp, forall_and, tidy] using neat.tidy
  · rw [hput]
    refine ⟨?_, ?_⟩
    · have same : ((t.entries.map fun e => if e.1.name = key.name then (e.1, n) else e).map
          (·.1.name)) = t.entries.map (·.1.name) := by
        rw [List.map_map]
        refine List.map_congr_left fun e _ => ?_
        simp only [Function.comp_apply]
        split <;> rfl
      rw [same]
      exact neat.distinct
    · intro e he
      obtain ⟨e', he', rfl⟩ := List.mem_map.mp he
      split
      · exact tidy
      · exact neat.tidy e' he'

theorem neat_remove (name : String) (neat : Neat t.entries) : Neat (t.remove name).entries :=
  ⟨neat.distinct.sublist (List.filter_sublist.map _),
    fun e he => neat.tidy e ((List.mem_filter.mp he).1)⟩

theorem neat_found (neat : Neat t.entries) (h : t.find? name = some n) : Tidy n := by
  obtain ⟨key, hkey, _⟩ := find_entry h
  exact neat.tidy _ hkey

end

end PodConsole.Proofs.TomlContents
