import PodConsole.CommandLine.Run
import PodConsole.Proofs.Files.Trees
import PodConsole.Proofs.Settings.RoundTrip
import PodConsole.Proofs.Text.Encoding

namespace PodConsole.Proofs.Keeping
open Files Settings Trees

variable {s : Settings} {t t' : Tree} {working path : String}

theorem opened_congr (h : t'.find? (locate working path) = t.find? (locate working path)) :
    opened? t' working path = opened? t working path := by
  simp only [opened?, h]

theorem load_congr (h : t'.find? (locate working path) = t.find? (locate working path)) :
    load t' working path = load t working path := by
  simp only [load, opened_congr h]

theorem opened_file (h : namesFile path = true) :
    opened? t working path = t.find? (locate working path) := by
  simp only [namesFile, Bool.and_eq_true, decide_eq_true_eq, Bool.not_eq_true'] at h
  obtain ⟨hsome, hend⟩ := h
  rw [opened?, if_neg hsome]
  split
  · rename_i hfound
    rw [hend, hfound]
    rfl
  · rfl

theorem load_written {text : String} (htext : s.write? = some text) (hpath : namesFile path = true)
    (hfile : t.find? (locate working path) = some (.file (Text.Utf8.encode text))) :
    load t working path = .ok s := by
  simp only [load, opened_file hpath, hfile, Entry.text?, Encoding.read_encode,
    SettingsRoundTrip.read_written htext]

/-- The directories that a file's place is in. -/
def way (working path : String) : Location :=
  (locate working path).dropLast

/-- All that saving can come to. -/
inductive Saved (s : Settings) (t : Tree) (working path : String) :
    Except StoreError Unit × Tree → Prop
  | blocked {t' : Tree} : ¬ Clear t (way working path) → Grown (way working path) t t' →
      Saved s t working path (.error (.noDirectory (parent path)), t')
  | unwritable {t' : Tree} : s.write? = none → Grown (way working path) t t' →
      Saved s t working path (.error .unwritable, t')
  | unwritten {t' : Tree} :
      (namesFile path = true → t.find? (locate working path) = some .directory) →
      Grown (way working path) t t' → Saved s t working path (.error (.unwritten path), t')
  | written {between t' : Tree} {text : String} : Clear t (way working path) →
      s.write? = some text → namesFile path = true →
      t.find? (locate working path) ≠ some .directory → Grown (way working path) t between →
      (∀ l, t'.find? l = if l = locate working path then some (.file (Text.Utf8.encode text))
        else between.find? l) →
      Saved s t working path (.ok (), t')

theorem save_saved (s : Settings) (t : Tree) (working path : String) :
    Saved s t working path (s.save t working path) := by
  rcases hmake : t.makeDirectories (way working path) with ⟨ok, between⟩
  have hgrown : Grown (way working path) t between := by
    simpa only [hmake] using make_grown t (way working path)
  have hclear : ok = true ↔ Clear t (way working path) := by
    simpa only [hmake] using make_iff t (way working path)
  have hmade : (t.makeDirectories (way working path)).1 = true → _ := make_made
  rw [hmake] at hmade
  rw [way] at hmake
  simp only [Settings.save, hmake]
  cases ok with
  | false => exact .blocked (fun h => by simpa using hclear.mpr h) hgrown
  | true =>
    cases htext : s.write? with
    | none => exact .unwritable htext hgrown
    | some text =>
      cases hpath : namesFile path with
      | false => exact .unwritten (by simp [hpath]) hgrown
      | true =>
        have hplace := Grown.beyond hgrown
        simp only [if_true]
        cases hwrite : between.write? (locate working path) (Text.Utf8.encode text) with
        | none =>
          refine .unwritten (fun _ => ?_) hgrown
          rw [write_eq, hplace] at hwrite
          by_contra hfree
          have hparent : between.find? (locate working path).dropLast = some .directory :=
            hmade rfl
          simp [hfree, hparent] at hwrite
        | some t' =>
          refine .written (hclear.mp rfl) htext hpath ?_ hgrown (find_written hwrite)
          rw [← hplace]
          rw [write_eq] at hwrite
          split at hwrite
          · rename_i hfree
            exact hfree.1
          · cases hwrite

/-- Files elsewhere are neither made nor changed nor lost. -/
theorem Saved.elsewhere {result : Except StoreError Unit} (h : Saved s t working path (result, t'))
    {l : Location} (hl : l ≠ locate working path) (content : Text.Bytes) :
    t'.find? l = some (.file content) ↔ t.find? l = some (.file content) := by
  cases h with
  | blocked _ hgrown | unwritable _ hgrown | unwritten _ hgrown => exact hgrown.file
  | written _ _ _ _ hgrown hfind =>
    rw [hfind, if_neg hl]
    exact hgrown.file

/-- A save that fails does not touch the place of its file. -/
theorem Saved.failed {e : StoreError} (h : Saved s t working path (.error e, t')) :
    t'.find? (locate working path) = t.find? (locate working path) := by
  cases h with
  | blocked _ hgrown | unwritable _ hgrown | unwritten _ hgrown => exact Grown.beyond hgrown

theorem init_keeps (t : Tree) (working path : String) {l : Location} {content : Text.Bytes}
    (hfile : t.find? l = some (.file content)) :
    (CommandLine.initConfig t working path false).2.find? l = some (.file content) := by
  have hsaved : Saved {} t working path (Settings.save {} t working path) :=
    save_saved {} t working path
  unfold CommandLine.initConfig
  generalize hresult : Settings.save {} t working path = result at hsaved
  obtain ⟨_ | _, t'⟩ := result
  · split
    · exact hfile
    · by_cases hl : l = locate working path
      · subst hl
        exact hsaved.failed.trans hfile
      · exact (hsaved.elsewhere hl content).mpr hfile
  · split
    · exact hfile
    · rename_i hnew
      refine (hsaved.elsewhere ?_ content).mpr hfile
      -- a file in that place would have been found
      rintro rfl
      cases hsaved with
      | written _ _ hpath _ _ _ => simp [opened_file hpath, hfile] at hnew

/-- Settings are saved exactly if they have a document, the path is one of a file, nothing but a file
may be there, and no file is in the way of its directories. From then on they are what is loaded from
that path, whatever else happens, until its file is written again, and no other file has changed.
Where saving fails, all files are as they were, and so is what is loaded. The settings that are made
at first never replace a file unless they are to. -/
theorem saved_or_as_before (s : Settings) (t : Tree) (working path : String) :
    let l := locate working path
    let result := (s.save t working path).1
    let after := (s.save t working path).2
    (result = .ok () ↔
      (∃ text, s.write? = some text) ∧ namesFile path = true ∧ t.find? l ≠ some .directory ∧
        ∀ above content, above <+: l.dropLast → t.find? above ≠ some (.file content)) ∧
    (result = .ok () → ∀ changes : List Change, (∀ change ∈ changes, ¬ change.Writes l) →
      load (changed after changes) working path = .ok s) ∧
    (result = .ok () → ∀ other content, other ≠ l →
      (after.find? other = some (.file content) ↔ t.find? other = some (.file content))) ∧
    (result ≠ .ok () →
      (∀ other content,
        after.find? other = some (.file content) ↔ t.find? other = some (.file content)) ∧
      load after working path = load t working path) ∧
    ∀ e i, i.command = .initConfig false → ∀ other content, t.find? other = some (.file content) →
      (CommandLine.invoke t working e i).2.find? other = some (.file content) := by
  intro l result after
  have hsaved : Saved s t working path (result, after) := save_saved s t working path
  have hinit : ∀ e (i : CommandLine.Invocation), i.command = .initConfig false →
      ∀ other content, t.find? other = some (.file content) →
        (CommandLine.invoke t working e i).2.find? other = some (.file content) := by
    intro e i hi other content hfile
    simp only [CommandLine.invoke, hi]
    exact init_keeps t working _ hfile
  generalize result = result, after = after at hsaved
  cases result with
  | ok =>
    refine ⟨iff_of_true rfl ?_, fun _ => ?_, fun _ other content hother =>
      hsaved.elsewhere hother content, fun hfailed => (hfailed rfl).elim, hinit⟩
    · cases hsaved with
      | written hclear htext hpath hfree _ _ => exact ⟨⟨_, htext⟩, hpath, hfree, hclear⟩
    · intro changes hchanges
      cases hsaved with
      | written _ htext hpath _ _ hfind =>
        exact load_written htext hpath (changed_keeps hchanges (by rw [hfind, if_pos rfl]))
  | error e =>
    have hplace := hsaved.failed
    refine ⟨iff_of_false nofun ?_, nofun, nofun, fun _ => ⟨?_, load_congr hplace⟩, hinit⟩
    · rintro ⟨⟨text, htext⟩, hpath, hfree, hclear⟩
      cases hsaved with
      | blocked hblocked _ => exact hblocked hclear
      | unwritable hnone _ =>
        rw [htext] at hnone
        cases hnone
      | unwritten hdirectory _ => exact hfree (hdirectory hpath)
    · intro other content
      by_cases hother : other = l
      · rw [hother, hplace]
      · exact hsaved.elsewhere hother content

end PodConsole.Proofs.Keeping
