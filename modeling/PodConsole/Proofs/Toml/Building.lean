import PodConsole.Proofs.Toml.Contents
import PodConsole.Toml.Reader

namespace PodConsole.Proofs.TomlBuilding
open Toml TomlContents

abbrev names (path : List Key) : List String := path.map Key.name

/-- A change at the end of a path: what is held elsewhere stays, and below the path stands what the
changed table holds. -/
structure Changes (way : List String) (child child' t t' : Table) : Prop where
  neat : Neat child'.entries → Neat t'.entries
  frame : ∃ kept, bound t.entries = kept ∪ under way (bound child.entries) ∧
    bound t'.entries = kept ∪ under way (bound child'.entries)

/-- A table is entered by an entry of the one above it, and once it has changed from `inner` to
`inner'`, a new node takes the place of the old one. Tables before the last of an array are kept. -/
structure Enters (key : Key) (inner inner' t t' : Table) : Prop where
  neat : Neat t.entries → Neat inner.entries ∧ (Neat inner'.entries → Neat t'.entries)
  beside : Neat t.entries → ∃ kept,
    bound t.entries =
      bound (t.remove key.name).entries ∪ under [key.name] (kept ∪ bound inner.entries) ∧
    bound t'.entries =
      bound (t.remove key.name).entries ∪ under [key.name] (kept ∪ bound inner'.entries)

section
variable {t : Table} {key : Key}

theorem enters_fresh (absent : t.find? key.name = none) (form : Form) (inner' : Table) :
    Enters key { form } inner' t (t.put key inner'.node) where
  neat neat := ⟨neat_nil, fun hinner => neat_put neat (tidy_table.mpr hinner)⟩
  beside neat := by
    refine ⟨∅, ?_, ?_⟩
    · rw [remove_absent absent, bound_nil, Set.union_empty, under_empty, Set.union_empty]
    · rw [bound_put, Set.empty_union, Table.node, held_table]

theorem enters_table {form : Form} {stretch : Option Stretch} {entries : List (Key × Node)}
    (found : t.find? key.name = some (.table form stretch entries)) (inner' : Table) :
    Enters key ⟨form, stretch, entries⟩ inner' t (t.put key inner'.node) where
  neat neat :=
    ⟨tidy_table.mp (neat_found neat found), fun hinner => neat_put neat (tidy_table.mpr hinner)⟩
  beside neat := by
    refine ⟨∅, ?_, ?_⟩
    · rw [bound_found neat found, held_table, Set.empty_union]
    · rw [bound_put, Set.empty_union, Table.node, held_table]

theorem enters_last {front : List Node} {inner : Table}
    (found : t.find? key.name = some (.tables (front ++ [inner.node]))) (inner' : Table) :
    Enters key inner inner' t (t.put key (.tables (front ++ [inner'.node]))) where
  neat neat := by
    obtain ⟨hopen, htidy⟩ := tidy_tables (neat_found neat found)
    refine ⟨tidy_table.mp (htidy _ List.mem_concat_self), fun hinner => neat_put neat ?_⟩
    exact tidy_more_tables ⟨fun n hn => hopen n (List.mem_append_left _ hn),
      fun n hn => htidy n (List.mem_append_left _ hn)⟩ hinner
  beside neat := by
    refine ⟨held (.tables front), ?_, ?_⟩
    · rw [bound_found neat found, held_more_tables, Table.node, held_table]
    · rw [bound_put, held_more_tables, Table.node, held_table]

end

/-- All that a way can begin with. -/
theorem within_enters {α : Type} {fresh : Form} {gate : Table.Gate}
    {f : Table → Option (α × Table)} {key : Key} {rest : List Key} {t t' : Table} {a : α}
    (h : Table.within fresh gate f (key :: rest) t = some (a, t')) :
    ∃ inner inner', Table.within fresh gate f rest inner = some (a, inner') ∧
      Enters key inner inner' t t' := by
  unfold Table.within at h
  split at h
  · next absent =>
    obtain ⟨⟨_, inner'⟩, hwithin, hput⟩ := Option.bind_eq_some_iff.mp h
    cases hput
    exact ⟨_, inner', hwithin, enters_fresh absent fresh inner'⟩
  · next form stretch entries found =>
    split at h
    · obtain ⟨⟨_, inner'⟩, hwithin, hput⟩ := Option.bind_eq_some_iff.mp h
      cases hput
      exact ⟨_, inner', hwithin, enters_table found inner'⟩
    · cases h
  · next items found =>
    split at h
    · next form stretch entries hlast =>
      obtain ⟨front, rfl⟩ := List.getLast?_eq_some_iff.mp hlast
      rw [List.dropLast_concat] at h
      split at h
      · obtain ⟨⟨_, inner'⟩, hwithin, hput⟩ := Option.bind_eq_some_iff.mp h
        cases hput
        exact ⟨⟨form, stretch, entries⟩, inner', hwithin, enters_last found inner'⟩
      · cases h
    · cases h
  · cases h

theorem Enters.changes {key : Key} {way : List String} {child child' inner inner' t t' : Table}
    (h : Enters key inner inner' t t') (neat : Neat t.entries)
    (hinner : Changes way child child' inner inner') :
    Changes (key.name :: way) child child' t t' := by
  obtain ⟨kept, hold, hnew⟩ := h.beside neat
  obtain ⟨deeper, hold', hnew'⟩ := hinner.frame
  have gather (c : Contents) : bound (t.remove key.name).entries ∪
        under [key.name] (kept ∪ (deeper ∪ under way c)) =
      bound (t.remove key.name).entries ∪ under [key.name] (kept ∪ deeper) ∪
        under (key.name :: way) c := by
    rw [← Set.union_assoc kept, under_union, under_under, Set.union_assoc]
    rfl
  refine ⟨fun hchild => (h.neat neat).2 (hinner.neat hchild),
    bound (t.remove key.name).entries ∪ under [key.name] (kept ∪ deeper), ?_, ?_⟩
  · rw [hold, hold', gather]
  · rw [hnew, hnew', gather]

theorem within_changes {α : Type} {fresh : Form} {gate : Table.Gate}
    {f : Table → Option (α × Table)} {path : List Key} {t t' : Table} {a : α}
    (neat : Neat t.entries) (h : Table.within fresh gate f path t = some (a, t')) :
    ∃ child child', f child = some (a, child') ∧ Neat child.entries ∧
      Changes (names path) child child' t t' := by
  induction path generalizing t t' with
  | nil =>
    refine ⟨t, t', h, neat, id, ∅, ?_, ?_⟩ <;> rw [Set.empty_union] <;> exact (under_nil _).symm
  | cons key rest ih =>
    obtain ⟨inner, inner', hwithin, henters⟩ := within_enters h
    obtain ⟨child, child', hf, hneat, hchanges⟩ := ih (henters.neat neat).1 hwithin
    exact ⟨child, child', hf, hneat, henters.changes neat hchanges⟩

/-- A change that only adds, at the end of a path, adds to the whole. -/
theorem within_adds {fresh : Form} {gate : Table.Gate} {f : Table → Option (Unit × Table)}
    {c : Contents} {path : List Key} {t : Table} {done : Unit × Table}
    (adds : ∀ u u', Neat u.entries → f u = some ((), u') →
      Neat u'.entries ∧ bound u'.entries = bound u.entries ∪ c)
    (neat : Neat t.entries) (h : Table.within fresh gate f path t = some done) :
    Neat done.2.entries ∧ bound done.2.entries = bound t.entries ∪ under (names path) c := by
  obtain ⟨child, child', hf, hneat, hchanges⟩ := within_changes neat h
  obtain ⟨hneat', hadded⟩ := adds child child' hneat hf
  obtain ⟨kept, hold, hnew⟩ := hchanges.frame
  refine ⟨hchanges.neat hneat', ?_⟩
  rw [hnew, hold, hadded, under_union, Set.union_assoc]

theorem bind_new_adds {t t' : Table} {key : Key} {n : Node} (tidy : Tidy n)
    (neat : Neat t.entries) (h : (t.bindNew key n).map ((), ·) = some ((), t')) :
    Neat t'.entries ∧ bound t'.entries = bound t.entries ∪ under [key.name] (held n) := by
  unfold Table.bindNew at h
  split at h
  · cases h
  · next absent =>
    cases h
    have hnone : t.find? key.name = none := by simpa using absent
    refine ⟨neat_put neat tidy, ?_⟩
    rw [bound_put, remove_absent hnone]

/-- Binding a key adds the value at the whole path. -/
theorem bind_adds {t t' : Table} {path : List Key} {key : Key} {n : Node} (neat : Neat t.entries)
    (tidy : Tidy n) (h : t.bind path key n = some t') :
    Neat t'.entries ∧
      bound t'.entries = bound t.entries ∪ under (names path ++ [key.name]) (held n) := by
  obtain ⟨done, hwithin, rfl⟩ := Option.map_eq_some_iff.mp h
  obtain ⟨hneat, hadded⟩ := within_adds (fun _ _ => bind_new_adds tidy) neat hwithin
  exact ⟨hneat, by rw [hadded, under_under]⟩

def placeOf (d : Draft) : List String :=
  match d.place with
  | none => []
  | some (path, key, _) => names path ++ [key.name]

def drafted (d : Draft) : Contents :=
  bound d.root.entries ∪ under (placeOf d) (bound d.current.entries)

structure Sound (d : Draft) : Prop where
  root : Neat d.root.entries
  current : Neat d.current.entries
  /-- Before the first header everything is in the current table. -/
  first : d.place = none → d.root.entries = []

theorem Sound.empty : Sound {} := ⟨neat_nil, neat_nil, fun _ => rfl⟩

theorem bind_holds {d d' : Draft} {path : List Key} {key : Key} {n : Node} (sound : Sound d)
    (tidy : Tidy n) (h : d.bind path key n = some d') :
    Sound d' ∧ placeOf d' = placeOf d ∧
      drafted d' = drafted d ∪ under (placeOf d ++ names path ++ [key.name]) (held n) := by
  obtain ⟨current, hbind, hrest⟩ := Option.bind_eq_some_iff.mp h
  cases hrest
  obtain ⟨hneat, hadded⟩ := bind_adds sound.current tidy hbind
  refine ⟨⟨sound.root, hneat, sound.first⟩, rfl, ?_⟩
  calc drafted _
    _ = bound d.root.entries ∪ under (placeOf d) (bound current.entries) := rfl
    _ = bound d.root.entries ∪ under (placeOf d) (bound d.current.entries) ∪
          under (placeOf d) (under (names path ++ [key.name]) (held n)) := by
        rw [hadded, under_union, Set.union_assoc]
    _ = drafted d ∪ under (placeOf d ++ names path ++ [key.name]) (held n) := by
        rw [under_under, List.append_assoc, drafted]

/-- One more table behind those that headers of the same path wrote. -/
theorem repeat_adds {t t' current : Table} {key : Key} (ready : Neat current.entries)
    (neat : Neat t.entries)
    (h : (match t.find? key.name with
      | some (.tables items) => some ((), t.put key (.tables (items ++ [current.node])))
      | _ => none) = some ((), t')) :
    Neat t'.entries ∧ bound t'.entries = bound t.entries ∪ under [key.name] (held current.node) := by
  split at h
  · next items hfound =>
    cases h
    refine ⟨neat_put neat (tidy_more_tables (tidy_tables (neat_found neat hfound)) ready), ?_⟩
    rw [bound_put, held_more_tables, under_union, bound_found neat hfound, Set.union_assoc]
  · cases h

theorem finish_holds {d : Draft} {root : Table} (sound : Sound d) (h : d.finish = some root) :
    Neat root.entries ∧ bound root.entries = drafted d := by
  have hready : Tidy d.current.node := tidy_table.mpr sound.current
  have hcurrent : held d.current.node = bound d.current.entries := held_table ..
  unfold Draft.finish at h
  split at h
  · next hplace =>
    cases h
    refine ⟨sound.current, ?_⟩
    rw [drafted, sound.first hplace, bound_nil, Set.empty_union, placeOf, hplace, under_nil]
  · next path key hplace =>
    obtain ⟨done, hwithin, rfl⟩ := Option.map_eq_some_iff.mp h
    obtain ⟨hneat, hadded⟩ := within_adds (fun _ _ => bind_new_adds hready) sound.root hwithin
    refine ⟨hneat, ?_⟩
    rw [hadded, under_under, drafted, placeOf, hplace, hcurrent]
  · next path key hplace =>
    obtain ⟨done, hwithin, rfl⟩ := Option.map_eq_some_iff.mp h
    obtain ⟨hneat, hadded⟩ := within_adds (fun _ _ => repeat_adds sound.current) sound.root hwithin
    refine ⟨hneat, ?_⟩
    rw [hadded, under_under, drafted, placeOf, hplace, hcurrent]

/-- A header takes over what other headers have already put below its path. -/
theorem claim_parts {t t' : Table} {key : Key} {entries : List (Key × Node)} (repeated : Bool)
    (neat : Neat t.entries)
    (h : (if repeated then Draft.claimRepeated key else Draft.claim key) t = some (entries, t')) :
    Neat t'.entries ∧ Neat entries ∧
      bound t.entries = bound t'.entries ∪ under [key.name] (bound entries) := by
  cases repeated with
  | false =>
    rw [if_neg Bool.false_ne_true] at h
    unfold Draft.claim at h
    split at h
    · cases h
      exact ⟨neat, neat_nil, by rw [bound_nil, under_empty, Set.union_empty]⟩
    · next stretch entries hfound =>
      cases h
      refine ⟨neat_remove _ neat, tidy_table.mp (neat_found neat hfound), ?_⟩
      rw [bound_found neat hfound, held_table]
    · cases h
  | true =>
    rw [if_pos rfl] at h
    unfold Draft.claimRepeated at h
    split at h
    · next absent =>
      cases h
      refine ⟨neat_put neat (.tables (by simp) (by simp)), neat_nil, ?_⟩
      rw [bound_put, remove_absent absent, held_tables, bound_nil]
      simp [under_empty]
    · cases h
      exact ⟨neat, neat_nil, by rw [bound_nil, under_empty, Set.union_empty]⟩
    · cases h

theorem start_holds {d d' : Draft} {path : List Key} {key : Key} {repeated : Bool}
    {stretch : Stretch} (sound : Sound d) (h : d.start path key repeated stretch = some d') :
    Sound d' ∧ placeOf d' = names path ++ [key.name] ∧ drafted d' = drafted d := by
  obtain ⟨root, hfinish, h⟩ := Option.bind_eq_some_iff.mp h
  obtain ⟨⟨entries, root'⟩, hwithin, h⟩ := Option.bind_eq_some_iff.mp h
  cases h
  obtain ⟨hroot, hdrafted⟩ := finish_holds sound hfinish
  obtain ⟨child, child', hclaim, hneat, hchanges⟩ := within_changes hroot hwithin
  obtain ⟨hchild, hentries, hparts⟩ := claim_parts repeated hneat hclaim
  obtain ⟨kept, hold, hnew⟩ := hchanges.frame
  refine ⟨⟨hchanges.neat hchild, hentries, nofun⟩, rfl, ?_⟩
  calc drafted _
    _ = bound root'.entries ∪ under (names path ++ [key.name]) (bound entries) := rfl
    _ = bound root.entries := by
        rw [hnew, hold, hparts, under_union, under_under, Set.union_assoc]
    _ = drafted d := hdrafted

/-- Each with its whole path, which the last header begins. -/
def bindings (place : List String) : List Statement → List (List String × Node)
  | [] => []
  | .header path key _ _ :: ss => bindings (names path ++ [key.name]) ss
  | .binding path key node :: ss => (place ++ names path ++ [key.name], node) :: bindings place ss

/-- The values bound, those in tables between braces at their own paths. -/
def told (place : List String) (ss : List Statement) : Contents :=
  ⋃ b ∈ bindings place ss, under b.1 (held b.2)

theorem told_binding (place : List String) (path : List Key) (key : Key) (n : Node)
    (ss : List Statement) :
    told place (.binding path key n :: ss) =
      under (place ++ names path ++ [key.name]) (held n) ∪ told place ss := by
  simp only [told, bindings, List.mem_cons, Set.iUnion_or, Set.iUnion_union_distrib,
    Set.iUnion_iUnion_eq_left]

def TidyStatement : Statement → Prop
  | .header _ _ _ _ => True
  | .binding _ _ n => Tidy n

theorem add_all_holds {ss : List Statement} {d d' : Draft} (sound : Sound d)
    (tidy : ∀ s ∈ ss, TidyStatement s) (h : ss.foldlM Draft.add d = some d') :
    Sound d' ∧ drafted d' = drafted d ∪ told (placeOf d) ss := by
  induction ss generalizing d with
  | nil =>
    cases h
    exact ⟨sound, by simp [told, bindings]⟩
  | cons s ss ih =>
    obtain ⟨hs, hss⟩ := List.forall_mem_cons.mp tidy
    rw [List.foldlM_cons] at h
    obtain ⟨d₁, hadd, hrest⟩ := Option.bind_eq_some_iff.mp h
    cases s with
    | header path key repeated stretch =>
      obtain ⟨hsound, hplace, hsame⟩ := start_holds sound hadd
      obtain ⟨hsound', hdrafted⟩ := ih hsound hss hrest
      refine ⟨hsound', ?_⟩
      rw [hdrafted, hsame, hplace]
      rfl
    | binding path key n =>
      obtain ⟨hsound, hplace, hadded⟩ := bind_holds sound hs hadd
      obtain ⟨hsound', hdrafted⟩ := ih hsound hss hrest
      refine ⟨hsound', ?_⟩
      rw [hdrafted, hadded, hplace, told_binding, Set.union_assoc]

theorem document_holds {ss : List Statement} {doc : Document}
    (tidy : ∀ s ∈ ss, TidyStatement s) (h : Document.ofStatements? ss = some doc) :
    Neat doc ∧ bound doc = told [] ss := by
  obtain ⟨d, hadd, h⟩ := Option.bind_eq_some_iff.mp h
  obtain ⟨root, hfinish, h⟩ := Option.bind_eq_some_iff.mp h
  cases h
  obtain ⟨hsound, hdrafted⟩ := add_all_holds .empty tidy hadd
  obtain ⟨hneat, hroot⟩ := finish_holds hsound hfinish
  have hnothing : drafted {} = ∅ := by
    rw [drafted, bound_nil, under_empty, Set.union_empty]
  refine ⟨hneat, ?_⟩
  rw [hroot, hdrafted, hnothing, Set.empty_union]
  rfl

theorem read_tidy (fuel : Nat) :
    (∀ depth cs n r, readNode fuel depth cs = some (n, r) → Tidy n) ∧
      ∀ depth t cs t' r, Neat t.entries → readPairs fuel depth t cs = some (t', r) →
        Neat t'.entries := by
  induction fuel with
  | zero =>
    refine ⟨fun depth cs n r h => ?_, fun depth t cs t' r _ h => ?_⟩
    · rw [readNode] at h
      cases h
    · rw [readPairs] at h
      cases h
  | succ fuel ih =>
    obtain ⟨hnode, hpairs⟩ := ih
    refine ⟨fun depth cs n r h => ?_, fun depth t cs t' r neat h => ?_⟩
    · unfold readNode at h
      split at h
      · split at h
        · cases h
        · obtain ⟨⟨items, r'⟩, _, h⟩ := Option.bind_eq_some_iff.mp h
          cases h
          exact .value trivial
      · split at h
        · cases h
        · obtain ⟨⟨t, r'⟩, hread, h⟩ := Option.bind_eq_some_iff.mp h
          cases h
          exact tidy_table.mpr (hpairs _ _ _ _ _ neat_nil hread)
      all_goals
        obtain ⟨⟨s, r'⟩, _, h⟩ := Option.bind_eq_some_iff.mp h
        cases h
        exact .value trivial
    · unfold readPairs at h
      split at h
      · split at h
        · cases h
          exact neat
        · cases h
      · obtain ⟨⟨⟨path, key⟩, r₁⟩, _, h⟩ := Option.bind_eq_some_iff.mp h
        obtain ⟨⟨_, r₂⟩, _, h⟩ := Option.bind_eq_some_iff.mp h
        obtain ⟨⟨n, r₃⟩, hread, h⟩ := Option.bind_eq_some_iff.mp h
        obtain ⟨t₁, hbind, h⟩ := Option.bind_eq_some_iff.mp h
        obtain ⟨hneat, _⟩ := bind_adds neat (hnode _ _ _ _ hread) hbind
        split at h
        · cases h
          exact hneat
        · exact hpairs _ _ _ _ _ hneat h
        · cases h

theorem read_header_tidy {cs r : List Char} {s : Statement} (h : readHeader cs = some (s, r)) :
    TidyStatement s := by
  unfold readHeader at h
  split at h
  · obtain ⟨⟨⟨path, key⟩, r₁⟩, _, h⟩ := Option.bind_eq_some_iff.mp h
    obtain ⟨_, _, h⟩ := Option.bind_eq_some_iff.mp h
    obtain ⟨_, _, h⟩ := Option.bind_eq_some_iff.mp h
    cases h
    trivial
  · obtain ⟨⟨⟨path, key⟩, r₁⟩, _, h⟩ := Option.bind_eq_some_iff.mp h
    obtain ⟨_, _, h⟩ := Option.bind_eq_some_iff.mp h
    cases h
    trivial
  · cases h

theorem read_binding_tidy {fuel : Nat} {cs r : List Char} {s : Statement}
    (h : readBinding fuel cs = some (s, r)) : TidyStatement s := by
  obtain ⟨⟨⟨path, key⟩, r₁⟩, _, h⟩ := Option.bind_eq_some_iff.mp h
  obtain ⟨_, _, h⟩ := Option.bind_eq_some_iff.mp h
  obtain ⟨⟨n, r₂⟩, hread, h⟩ := Option.bind_eq_some_iff.mp h
  cases h
  exact (read_tidy fuel).1 _ _ _ _ hread

theorem read_statements_tidy {fuel : Nat} {cs : List Char} {ss : List Statement}
    (h : readStatements fuel cs = some ss) : ∀ s ∈ ss, TidyStatement s := by
  induction fuel generalizing cs ss with
  | zero => cases h
  | succ fuel ih =>
    unfold readStatements at h
    split at h
    · cases h
      simp
    · obtain ⟨⟨s, r₁⟩, hheader, h⟩ := Option.bind_eq_some_iff.mp h
      obtain ⟨_, _, h⟩ := Option.bind_eq_some_iff.mp h
      obtain ⟨rest, hrest, h⟩ := Option.bind_eq_some_iff.mp h
      cases h
      exact List.forall_mem_cons.mpr ⟨read_header_tidy hheader, ih hrest⟩
    · split at h
      · obtain ⟨_, _, h⟩ := Option.bind_eq_some_iff.mp h
        exact ih h
      · obtain ⟨⟨s, r₁⟩, hbinding, h⟩ := Option.bind_eq_some_iff.mp h
        obtain ⟨_, _, h⟩ := Option.bind_eq_some_iff.mp h
        obtain ⟨rest, hrest, h⟩ := Option.bind_eq_some_iff.mp h
        cases h
        exact List.forall_mem_cons.mpr ⟨read_binding_tidy hbinding, ih hrest⟩

/-- The tree of a text holds what the statements of the text bind, in whichever order and form they
bind it. -/
theorem read_holds {text : String} {ss : List Statement} {doc : Document}
    (written : statements text = some ss) (built : Document.ofStatements? ss = some doc) :
    Neat doc ∧ bound doc = told [] ss :=
  document_holds (read_statements_tidy written) built

end PodConsole.Proofs.TomlBuilding
