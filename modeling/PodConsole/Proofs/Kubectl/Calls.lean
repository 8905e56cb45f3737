import PodConsole.Kubectl.Call
import PodConsole.Proofs.Decimal.Digits

namespace PodConsole.Proofs.Calls
open Kubectl Kubectl.Call
open Exec (Target)

theorem flag_is_option (s : Setting) : isOption s.flag = true := by
  cases s <;> rfl

theorem flag_not_end (s : Setting) : s.flag ≠ endOfOptions := by
  cases s <;> decide

theorem of_flag (s : Setting) : Setting.ofFlag? s.flag = some s := by
  cases s <;> rfl

theorem of_flag_none {argument : String} (h : ∀ s : Setting, argument ≠ s.flag) :
    Setting.ofFlag? argument = none := by
  rw [Setting.ofFlag?, List.find?_eq_none]
  intro s _
  simpa using (h s).symm

theorem flag_of {argument : String} {s : Setting} (h : Setting.ofFlag? argument = some s) :
    argument = s.flag := by
  have hs : s.flag = argument := by simpa using List.find?_some h
  exact hs.symm

/-- An option that neither ends the options nor takes the next argument. -/
structure Plain (argument : String) : Prop where
  option : isOption argument = true
  goesOn : argument ≠ endOfOptions
  alone : ∀ s : Setting, argument ≠ s.flag

instance (argument : String) : Decidable (Plain argument) :=
  decidable_of_iff (isOption argument = true ∧ argument ≠ endOfOptions
      ∧ ∀ s ∈ Setting.all, argument ≠ s.flag)
    ⟨fun ⟨ho, he, ha⟩ => ⟨ho, he, fun s => ha s (by cases s <;> decide)⟩,
      fun h => ⟨h.option, h.goesOn, fun s _ => h.alone s⟩⟩

theorem bare_goes_on {argument : String} (h : isOption argument = false) :
    argument ≠ endOfOptions ∧ ∀ s : Setting, argument ≠ s.flag := by
  refine ⟨fun e => ?_, fun s e => ?_⟩
  · rw [e] at h
    exact absurd h (by decide)
  · rw [e, flag_is_option] at h
    cases h

/-- What the arguments say, one kind of argument after the other. -/
inductive Reads : List String → Call → Prop where
  | nothing : Reads [] {}
  | command (rest : List String) : Reads (endOfOptions :: rest) { command := some rest }
  | setting (s : Setting) (value : String) {rest : List String} {c : Call} :
      Reads rest c → Reads (s.flag :: value :: rest) { c with settings := (s, value) :: c.settings }
  | option {argument : String} {rest : List String} {c : Call} : Plain argument → Reads rest c →
      Reads (argument :: rest) { c with options := argument :: c.options }
  | positional {argument : String} {rest : List String} {c : Call} : isOption argument = false →
      Reads rest c → Reads (argument :: rest) { c with positionals := argument :: c.positionals }

theorem reads_argument {argument : String} {rest : List String} {c : Call}
    (hend : argument ≠ endOfOptions) (hflag : ∀ s : Setting, argument ≠ s.flag)
    (h : Reads rest c) : Reads (argument :: rest) (withArgument argument c) := by
  unfold withArgument
  split
  · rename_i ho
    exact .option ⟨ho, hend, hflag⟩ h
  · rename_i ho
    exact .positional (by simpa using ho) h

theorem reads_of_read {arguments : List String} {c : Call} (h : read? arguments = some c) :
    Reads arguments c := by
  induction arguments using read?.induct generalizing c with
  | case1 =>
    obtain rfl : {} = c := Option.some.inj h
    exact .nothing
  | case2 rest =>
    rw [read?, if_pos rfl] at h
    obtain rfl := Option.some.inj h
    exact .command rest
  | case3 argument rest hend hflag ih =>
    rw [read?, if_neg hend, hflag] at h
    obtain ⟨d, hd, rfl⟩ := Option.map_eq_some_iff.mp h
    refine reads_argument hend (fun s hs => ?_) (ih hd)
    rw [hs, of_flag] at hflag
    cases hflag
  | case4 argument hend s hflag =>
    rw [read?, if_neg hend, hflag] at h
    cases h
  | case5 argument hend s hflag value rest ih =>
    rw [read?, if_neg hend, hflag] at h
    obtain ⟨d, hd, rfl⟩ := Option.map_eq_some_iff.mp h
    rw [flag_of hflag]
    exact .setting s value (ih hd)

theorem read_of_reads {arguments : List String} {c : Call} (h : Reads arguments c) :
    read? arguments = some c := by
  induction h with
  | nothing => rfl
  | command rest => rw [read?, if_pos rfl]
  | setting s value _ ih =>
    rw [read?, if_neg (flag_not_end s), of_flag]
    simp [ih, withSetting]
  | option plain _ ih =>
    rw [read?, if_neg plain.goesOn, of_flag_none plain.alone]
    simp [ih, withArgument, plain.option]
  | positional bare _ ih =>
    obtain ⟨hend, hflag⟩ := bare_goes_on bare
    rw [read?, if_neg hend, of_flag_none hflag]
    simp [ih, withArgument, bare]

theorem read_iff {arguments : List String} {c : Call} :
    read? arguments = some c ↔ Reads arguments c :=
  ⟨reads_of_read, read_of_reads⟩

/-- Nothing that looks like an option is ever taken for a positional argument. -/
theorem Reads.bare {arguments : List String} {c : Call} (h : Reads arguments c) :
    ∀ p ∈ c.positionals, isOption p = false := by
  induction h with
  | nothing | command => simp
  | setting _ _ _ ih | option _ _ ih => exact ih
  | positional bare _ ih => exact List.forall_mem_cons.mpr ⟨bare, ih⟩

theorem reads_options {options : List String} (h : ∀ a ∈ options, Plain a) :
    Reads options { options } := by
  induction options with
  | nil => exact .nothing
  | cons a options ih =>
    obtain ⟨ha, hr⟩ := List.forall_mem_cons.mp h
    exact .option ha (ih hr)

/-- The settings that a call for `t` is to make. -/
def selected (c : Client) (t : Target) : List (Setting × String) :=
  (c.kubeconfig.map fun path => (.kubeconfig, path)).toList
    ++ ((t.cluster.or c.defaultContext).map fun context => (.context, context)).toList
    ++ [(.namespaceName, t.namespaceName), (.container, t.container)]

theorem reads_optional (s : Setting) (value : Option String) {rest : List String} {c : Call}
    (h : Reads rest c) : Reads ((value.elim [] fun v => [s.flag, v]) ++ rest)
      { c with settings := (value.map fun v => (s, v)).toList ++ c.settings } := by
  cases value with
  | none => exact h
  | some v => exact .setting s v h

theorem reads_global (c : Client) (t : Target) {rest : List String} {d : Call} (h : Reads rest d)
    (hs : d.settings = [(.namespaceName, t.namespaceName), (.container, t.container)]) :
    Reads (c.globalArguments t ++ rest) { d with settings := selected c t } := by
  have hr := reads_optional .kubeconfig c.kubeconfig
    (reads_optional .context (t.cluster.or c.defaultContext) h)
  simp only [hs, ← List.append_assoc] at hr
  exact hr

theorem reads_exec (c : Client) (t : Target) (command : List String)
    (bare : isOption t.pod = false) : Reads (c.execArguments t command)
      { settings := selected c t, options := ["-i", "-t"], positionals := ["exec", t.pod],
        command := some command } := by
  rw [Client.execArguments, List.append_assoc]
  refine reads_global c t (d := ⟨_, _, _, _⟩) ?_ rfl
  exact .positional rfl (.option (by decide) (.option (by decide)
    (.setting .namespaceName _ (.positional bare (.setting .container _ (.command command))))))

/-- A pod among the options of an interactive call. -/
theorem reads_exec_option (c : Client) (t : Target) (command : List String)
    (plain : Plain t.pod) : Reads (c.execArguments t command)
      { settings := selected c t, options := ["-i", "-t", t.pod], positionals := ["exec"],
        command := some command } := by
  rw [Client.execArguments, List.append_assoc]
  refine reads_global c t (d := ⟨_, _, _, _⟩) ?_ rfl
  exact .positional rfl (.option (by decide) (.option (by decide)
    (.setting .namespaceName _ (.option plain (.setting .container _ (.command command))))))

/-- The options of a call for a log. -/
def logOptions (o : LogOptions) : List String :=
  (if o.follow then ["--follow"] else [])
    ++ (o.tailLines.elim [] fun n => ["--tail=" ++ toString n])
    ++ (if o.previous then ["--previous"] else [])

theorem tail_chars (n : Nat) :
    ("--tail=" ++ toString n).toList = LogOptions.tailFlag ++ Nat.toDigits 10 n := by
  simp [LogOptions.tailFlag]

theorem plain_tail (n : Nat) : Plain ("--tail=" ++ toString n) := by
  have hne : ∀ other : String, other.toList.take 3 ≠ ['-', '-', 't'] →
      "--tail=" ++ toString n ≠ other := by
    intro other ho he
    rw [← he, tail_chars] at ho
    exact ho rfl
  refine ⟨?_, hne _ (by decide), fun s => hne _ (by cases s <;> decide)⟩
  unfold isOption
  rw [tail_chars]
  rfl

theorem plain_log_options (o : LogOptions) : ∀ a ∈ logOptions o, Plain a := by
  intro a ha
  rcases List.mem_append.mp ha with ha | ha
  · rcases List.mem_append.mp ha with ha | ha
    · split at ha
      · obtain rfl := List.mem_singleton.mp ha
        decide
      · cases ha
    · cases hn : o.tailLines with
      | none => simp [hn] at ha
      | some n =>
        obtain rfl : a = _ := by simpa [hn] using ha
        exact plain_tail n
  · split at ha
    · obtain rfl := List.mem_singleton.mp ha
      decide
    · cases ha

theorem take_up_tail (o : LogOptions) (n : Nat) :
    o.takeUp? ("--tail=" ++ toString n) = some { o with tailLines := some n } := by
  have hf : "--tail=" ++ toString n ≠ "--follow" := fun h => by
    simpa [tail_chars, LogOptions.tailFlag] using congrArg (fun s => s.toList.take 3) h
  have hp : "--tail=" ++ toString n ≠ "--previous" := fun h => by
    simpa [tail_chars, LogOptions.tailFlag] using congrArg (fun s => s.toList.take 3) h
  have hd : (Nat.toDigits 10 n).all Decimal.isDigit = true :=
    List.all_eq_true.mpr fun d => DecimalDigits.to_digits_digit
  have hne : Nat.toDigits 10 n ≠ [] := Nat.toDigits_ne_nil
  rw [LogOptions.takeUp?, if_neg hf, if_neg hp, tail_chars]
  simp [hd, hne, DecimalDigits.of_digits_to_digits]

theorem take_up_follow (o : LogOptions) : o.takeUp? "--follow" = some { o with follow := true } :=
  rfl

theorem take_up_previous (o : LogOptions) :
    o.takeUp? "--previous" = some { o with previous := true } :=
  rfl

theorem of_log_options (o : LogOptions) : LogOptions.ofOptions? (logOptions o) = some o := by
  obtain ⟨follow, tailLines, previous⟩ := o
  cases follow <;> cases tailLines <;> cases previous <;>
    simp only [logOptions, LogOptions.ofOptions?, Option.elim, if_true, Bool.false_eq_true, if_false,
      List.append_nil, List.nil_append, List.cons_append, List.foldlM_cons, List.foldlM_nil,
      take_up_follow, take_up_tail, take_up_previous, Option.bind_eq_bind, Option.bind_some,
      Option.pure_def]

theorem log_arguments (c : Client) (t : Target) (o : LogOptions) :
    c.logArguments t o = c.globalArguments t ++ ("logs" :: Setting.namespaceName.flag ::
      t.namespaceName :: t.pod :: Setting.container.flag :: t.container :: logOptions o) := by
  simp [Client.logArguments, logOptions, Setting.flag]

theorem reads_log (c : Client) (t : Target) (o : LogOptions) (bare : isOption t.pod = false) :
    Reads (c.logArguments t o)
      { settings := selected c t, options := logOptions o, positionals := ["logs", t.pod] } := by
  rw [log_arguments]
  refine reads_global c t (d := ⟨_, _, _, _⟩) ?_ rfl
  exact .positional rfl (.setting _ _ (.positional bare
    (.setting _ _ (reads_options (plain_log_options o)))))

/-- A pod among the options of a call for a log. -/
theorem reads_log_option (c : Client) (t : Target) (o : LogOptions) (plain : Plain t.pod) :
    Reads (c.logArguments t o)
      { settings := selected c t, options := t.pod :: logOptions o, positionals := ["logs"] } := by
  rw [log_arguments]
  refine reads_global c t (d := ⟨_, _, _, _⟩) ?_ rfl
  exact .positional rfl (.setting _ _ (.option plain
    (.setting _ _ (reads_options (plain_log_options o)))))

/-- The arguments for a terminal and those for a log are read back as what they were made from
exactly if the pod does not look like an option; the cluster, the namespace, the container and the
command may look as they like. A pod that looks like an option is taken for one, and the call is
left without a pod. -/
theorem calls_read_back (c : Client) (t : Target) (command : List String) (o : LogOptions) :
    (read? (c.execArguments t command) = some
        { settings := selected c t, options := ["-i", "-t"], positionals := ["exec", t.pod],
          command := some command } ↔ isOption t.pod = false) ∧
    ((∃ options, LogOptions.ofOptions? options = some o ∧ read? (c.logArguments t o) = some
        { settings := selected c t, options, positionals := ["logs", t.pod] }) ↔
      isOption t.pod = false) ∧
    (Plain t.pod →
      read? (c.execArguments t command) = some
        { settings := selected c t, options := ["-i", "-t", t.pod], positionals := ["exec"],
          command := some command } ∧
      ∃ options, LogOptions.ofOptions? options = some o ∧ read? (c.logArguments t o) = some
        { settings := selected c t, options := t.pod :: options, positionals := ["logs"] }) := by
  refine ⟨⟨fun h => ?_, fun bare => ?_⟩, ⟨fun ⟨options, _, h⟩ => ?_, fun bare => ?_⟩, fun plain =>
    ⟨?_, ?_⟩⟩
  · exact (read_iff.mp h).bare t.pod (by simp)
  · exact read_iff.mpr (reads_exec c t command bare)
  · exact (read_iff.mp h).bare t.pod (by simp)
  · exact ⟨logOptions o, of_log_options o, read_iff.mpr (reads_log c t o bare)⟩
  · exact read_iff.mpr (reads_exec_option c t command plain)
  · exact ⟨logOptions o, of_log_options o, read_iff.mpr (reads_log_option c t o plain)⟩

/-- A target that is accepted, and whose pod makes the caller somebody else. -/
theorem pod_read_as_option :
    let t : Target := ⟨none, "team-a", "--as=admin", "app"⟩
    Target.ofSegments none "team-a" "--as=admin" "app" = .ok t ∧
    read? (({} : Client).execArguments t ["sh"]) = some
      { settings := [(.namespaceName, "team-a"), (.container, "app")],
        options := ["-i", "-t", "--as=admin"], positionals := ["exec"], command := some ["sh"] } :=
  ⟨rfl, by decide⟩

end PodConsole.Proofs.Calls
