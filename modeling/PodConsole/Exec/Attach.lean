import PodConsole.Exec.Failure

namespace PodConsole.Exec

/-- The shell being tried, and those after it. -/
structure Attachment where
  offered : List Shell
  current : Shell
  later : List Shell
  deriving DecidableEq, Repr

inductive Verdict where
  | over (result : Except Failure Shell)
  | again (next : Attachment)

namespace Attachment

def start (hint : Option String) : Attachment :=
  match Shell.candidates hint with
  | [] => ⟨Shell.all, .bash, Shell.all.tail⟩
  | shell :: later => ⟨shell :: later, shell, later⟩

/-- A sole candidate's own failure is the result. -/
def conclude (a : Attachment) : Except Failure Unit → Verdict
  | .ok () => .over (.ok a.current)
  | .error failure =>
    if failure.isShellUnavailable && a.offered.length > 1 then
      match a.later with
      | [] => .over (.error (.noShellAvailable (Shell.names a.offered)))
      | shell :: later => .again { a with current := shell, later := later }
    else .over (.error failure)

/-- Every attempt may change what the next one finds. -/
def run {σ : Type} (exec : Shell → σ → Except Failure Unit × σ) (a : Attachment) (s : σ) :
    Except Failure Shell × σ :=
  let (result, s) := exec a.current s
  match h : a.conclude result with
  | .over r => (r, s)
  | .again next =>
    have : next.later.length < a.later.length := by
      unfold conclude at h
      split at h
      · cases h
      · split at h
        · split at h
          · cases h
          · next heq => cases h; simp [heq]
        · cases h
    run exec next s
termination_by a.later.length

end Attachment

def attach {σ : Type} (exec : Shell → σ → Except Failure Unit × σ) (hint : Option String) (s : σ) :
    Except Failure Shell × σ :=
  (Attachment.start hint).run exec s

end PodConsole.Exec
