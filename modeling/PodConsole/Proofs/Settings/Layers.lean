import PodConsole.CommandLine.Run
import PodConsole.Proofs.Settings.RoundTrip
import PodConsole.Proofs.Text.Encoding

namespace PodConsole.Proofs.Layers
open CommandLine Files Settings

variable {file s s' : Settings} {e : Environment} {listen given : Option String} {t : Tree}
  {working path text below v w : String}

/-- What the environment says is taken, unless it is empty. -/
inductive Chosen (given : Option String) (below : String) : String → Prop
  | said {text : String} : given = some text → text ≠ "" → Chosen given below text
  | silent : (∀ text, given = some text → text = "") → Chosen given below below

/-- The settings of a run. An address on the command line comes before one in the environment, and
that before the one in the file. -/
structure Effective (file : Settings) (e : Environment) (listen : Option String) (s : Settings) :
    Prop where
  listened : ∀ address, listen = some address → s.server.listenAddr = address
  addressed : listen = none →
    Chosen e.overrides.listenAddr file.server.listenAddr s.server.listenAddr
  levelled : Chosen e.overrides.logLevel file.server.logLevel s.server.logLevel
  maxMessageBytes : s.server.maxMessageBytes = file.server.maxMessageBytes
  session : s.session = file.session
  kubectl : s.kubectl = file.kubectl

theorem chosen_filter (given : Option String) (below : String) :
    Chosen given below ((given.filter fun text => text ≠ "").getD below) := by
  cases given with
  | none => exact .silent nofun
  | some text =>
    by_cases h : text = ""
    · subst h
      exact .silent fun _ he => (Option.some.inj he).symm
    · rw [Option.filter_some, if_pos (by simpa using h)]
      exact .said rfl h

theorem Chosen.unique (h : Chosen given below v) (h' : Chosen given below w) : v = w := by
  cases h with
  | said he hn =>
    cases h' with
    | said he' _ => exact Option.some.inj (he.symm.trans he')
    | silent hs => exact (hn (hs _ he)).elim
  | silent hs =>
    cases h' with
    | said he' hn' => exact (hn' (hs _ he')).elim
    | silent _ => rfl

/-- Laid over what it was laid over before, it makes no difference. -/
theorem Chosen.again (h : Chosen given below v) : Chosen given v w ↔ Chosen given below w := by
  have hagain : Chosen given v v := by
    cases h with
    | said he hn => exact .said he hn
    | silent hs => exact .silent hs
  constructor
  · intro h'
    rwa [h'.unique hagain]
  · intro h'
    rwa [h'.unique h]

theorem effective_layered (file : Settings) (e : Environment) (listen : Option String) :
    Effective file e listen (effective file e listen) := by
  cases listen with
  | none => exact ⟨nofun, fun _ => chosen_filter _ _, chosen_filter _ _, rfl, rfl, rfl⟩
  | some address =>
    exact ⟨fun _ h => Option.some.inj h, nofun, chosen_filter _ _, rfl, rfl, rfl⟩

theorem Effective.unique (h : Effective file e listen s) (h' : Effective file e listen s') :
    s = s' := by
  have haddress : s.server.listenAddr = s'.server.listenAddr := by
    cases hl : listen with
    | none => exact (h.addressed hl).unique (h'.addressed hl)
    | some address => exact (h.listened address hl).trans (h'.listened address hl).symm
  have hserver : s.server = s'.server := by
    have hlevel := h.levelled.unique h'.levelled
    have hbytes := h.maxMessageBytes.trans h'.maxMessageBytes.symm
    generalize s.server = server, s'.server = server' at haddress hlevel hbytes
    cases server
    cases server'
    simp_all
  have hsession := h.session.trans h'.session.symm
  have hkubectl := h.kubectl.trans h'.kubectl.symm
  cases s
  cases s'
  simp_all

theorem effective_iff : Effective file e listen s ↔ s = effective file e listen :=
  ⟨fun h => h.unique (effective_layered file e listen),
    fun h => h ▸ effective_layered file e listen⟩

/-- Settings that the environment was laid over before are layered like those of the file. -/
theorem Effective.again (h : Effective file e none s) :
    Effective s e listen s' ↔ Effective file e listen s' := by
  have haddress := (h.addressed rfl).again (w := s'.server.listenAddr)
  have hlevel := h.levelled.again (w := s'.server.logLevel)
  constructor
  · intro h'
    exact ⟨h'.listened, fun hl => haddress.mp (h'.addressed hl), hlevel.mp h'.levelled,
      h'.maxMessageBytes.trans h.maxMessageBytes, h'.session.trans h.session,
      h'.kubectl.trans h.kubectl⟩
  · intro h'
    exact ⟨h'.listened, fun hl => haddress.mpr (h'.addressed hl), hlevel.mpr h'.levelled,
      h'.maxMessageBytes.trans h.maxMessageBytes.symm, h'.session.trans h.session.symm,
      h'.kubectl.trans h.kubectl.symm⟩

theorem load_shown (hfile : opened? t working path = some (.file (Text.Utf8.encode text)))
    (hwritten : s.write? = some text) : load t working path = .ok s := by
  simp only [load, hfile, Entry.text?, Encoding.read_encode,
    SettingsRoundTrip.read_written hwritten]

theorem show_printed (h : showConfig t working path e = .printed text) :
    ∃ file, load t working path = .ok file ∧ (effective file e none).write? = some text := by
  unfold showConfig at h
  split at h
  · cases h
  · rename_i file hload
    refine ⟨file, hload, ?_⟩
    cases hwritten : (effective file e none).write? with
    | none => simp [hwritten] at h
    | some written => simpa [hwritten] using h

/-- What a run that is to serve comes to with some settings. -/
def decided (json : Bool) (s : Settings) : Outcome :=
  match s.fault? with
  | some fault => .failed fault.message
  | none => .serving s json

theorem serve_decided {json : Bool} (hload : load t working path = .ok file)
    (hs : Effective file e listen s) : serve t working path e listen json = decided json s := by
  rw [effective_iff.mp hs]
  simp only [serve, hload]
  rfl

theorem show_shown (hload : load t working path = .ok file) (hs : Effective file e none s)
    (hwritten : s.write? = some text) : showConfig t working path e = .printed text := by
  simp only [showConfig, hload, ← effective_iff.mp hs, hwritten]
  rfl

/-- A run that is to serve judges the settings of its layers, and takes the defaults for a file that
is not there. Whenever a run shows settings, a file of just what it printed stands for the same
settings in the same environment: it is shown as the same text, and a run with it judges the same
settings whatever the command line says. -/
theorem settings_are_layered (t : Tree) (working : String) (e : Environment)
    (config : Option String) (verbose : Bool) (file : Settings)
    (loads : load t working (config.getD e.defaultPath) = .ok file) :
    let outcome (command : Command) := (invoke t working e ⟨config, verbose, command⟩).1
    (opened? t working (config.getD e.defaultPath) = none → file = {}) ∧
    (∀ listen json, ∃ s, (∀ s', Effective file e listen s' ↔ s' = s) ∧
      outcome (.serve listen json) = decided json s) ∧
    ∀ text, outcome .showConfig = .printed text →
      (∃ s, Effective file e none s ∧ Settings.read text = .ok s) ∧
      ∀ t' working' config' verbose',
        opened? t' working' (config'.getD e.defaultPath) =
          some (.file (Text.Utf8.encode text)) →
        let again (command : Command) := (invoke t' working' e ⟨config', verbose', command⟩).1
        again .showConfig = .printed text ∧
        (∃ shown, load t' working' (config'.getD e.defaultPath) = .ok shown ∧
          ∀ listen s, Effective shown e listen s ↔ Effective file e listen s) ∧
        ∀ listen json, again (.serve listen json) = outcome (.serve listen json) := by
  intro outcome
  refine ⟨?_, ?_, ?_⟩
  · intro hmissing
    simpa [load, hmissing] using loads.symm
  · intro listen json
    exact ⟨effective file e listen, fun s' => effective_iff,
      serve_decided loads (effective_layered file e listen)⟩
  · intro text hprinted
    obtain ⟨file', hload, hwritten⟩ := show_printed hprinted
    obtain rfl : file = file' := Except.ok.inj (loads.symm.trans hload)
    have hbase := effective_layered file e none
    refine ⟨⟨_, hbase, SettingsRoundTrip.read_written hwritten⟩, ?_⟩
    intro t' working' config' verbose' hfile again
    have hshown := load_shown hfile hwritten
    refine ⟨show_shown hshown (hbase.again.mpr hbase) hwritten,
      ⟨_, hshown, fun listen s => hbase.again⟩, ?_⟩
    intro listen json
    have hs := effective_layered file e listen
    exact (serve_decided hshown (hbase.again.mpr hs)).trans (serve_decided loads hs).symm

/-- Settings with an address and a level of their own. -/
def quietSettings : Settings where
  server := { listenAddr := "10.0.0.1:80", logLevel := "warn" }

/-- An environment that has an address, and nothing to say of the level. -/
def addressedOnly : Environment where
  overrides := { listenAddr := some "0.0.0.0:8080", logLevel := some "" }

def quietFile : Tree :=
  ⟨[(["p"], .file (Text.Utf8.encode quietSettings.document))]⟩

theorem quiet_file_loads : load quietFile "/" "/p" = .ok quietSettings := by
  have hnames : "/p".splitOn "/" = ["", "p"] := by
    -- the text is split one character after the other
    rw [String.splitOn, if_neg (by decide), String.splitOnAux, if_neg (by decide),
      if_pos (by decide), if_pos (by decide), String.splitOnAux, if_neg (by decide),
      if_neg (by decide), String.splitOnAux, if_pos (by decide)]
    decide
  have hplace : locate "/" "/p" = ["p"] := by
    rw [locate, if_pos (by decide), Location.ofPath, hnames]
    decide
  have hopened : opened? quietFile "/" "/p" =
      some (.file (Text.Utf8.encode quietSettings.document)) := by
    rw [opened?, hplace]
    rfl
  exact load_shown hopened rfl

/-- The address comes from the command line, or else from the environment, and the level from the
file. -/
theorem quiet_settings_are_layered :
    let outcome (command : Command) :=
      (invoke quietFile "/" addressedOnly ⟨some "/p", false, command⟩).1
    load quietFile "/" "/p" = .ok quietSettings ∧
    (∃ s, s.server.listenAddr = "[::1]:9000" ∧ s.server.logLevel = "warn" ∧
      outcome (.serve (some "[::1]:9000") true) = .serving s true) ∧
    (∃ s, s.server.listenAddr = "0.0.0.0:8080" ∧
      outcome (.serve none false) = .serving s false) ∧
    ∃ text, outcome .showConfig = .printed text := by
  intro outcome
  obtain ⟨-, hserve, -⟩ := settings_are_layered quietFile "/" addressedOnly (some "/p") false
    quietSettings quiet_file_loads
  refine ⟨quiet_file_loads, ?_, ?_, _, show_shown quiet_file_loads (effective_layered _ _ _) rfl⟩
  · obtain ⟨s, hs, houtcome⟩ := hserve (some "[::1]:9000") true
    obtain rfl := (hs _).mp (effective_layered quietSettings addressedOnly (some "[::1]:9000"))
    exact ⟨_, rfl, by decide, houtcome.trans rfl⟩
  · obtain ⟨s, hs, houtcome⟩ := hserve none false
    obtain rfl := (hs _).mp (effective_layered quietSettings addressedOnly none)
    exact ⟨_, by decide, houtcome.trans rfl⟩

end PodConsole.Proofs.Layers
