import PodConsole.Proofs.Toml.Sections
import PodConsole.Settings.Document

namespace PodConsole.Proofs.SettingsRoundTrip
open Settings Toml TomlLines TomlSections

def optionalText (key : String) (value : Option String) : List (String × Scalar) :=
  (value.map fun v => (key, .text v)).toList

def serverPairs (s : Server) : List (String × Scalar) :=
  [("listen_addr", .text s.listenAddr), ("log_level", .text s.logLevel),
    ("max_message_bytes", .integer s.maxMessageBytes)]

def sessionPairs (s : Settings.Session) : List (String × Scalar) :=
  [("bind_timeout_secs", .integer s.bindTimeoutSecs), ("max_sessions", .integer s.maxSessions),
    ("resize_queue_capacity", .integer s.resizeQueueCapacity),
    ("stdin_queue_capacity", .integer s.stdinQueueCapacity)]

def kubectlPairs (c : Kubectl.Client) : List (String × Scalar) :=
  ("binary", .text c.binary) ::
    (optionalText "kubeconfig" c.kubeconfig ++ optionalText "default_context" c.defaultContext)

def content (s : Settings) : List (Section Scalar) :=
  [("server", serverPairs s.server), ("session", sessionPairs s.session),
    ("kubectl", kubectlPairs s.kubectl)]

theorem content_distinct (s : Settings) :
    ((content s).map (·.1)).Nodup ∧ ∀ sec ∈ content s, (sec.2.map (·.1)).Nodup := by
  refine ⟨by simp [content], ?_⟩
  rcases s with ⟨server, session, ⟨binary, kubeconfig, defaultContext⟩⟩
  cases kubeconfig <;> cases defaultContext <;>
    simp [content, serverPairs, sessionPairs, kubectlPairs, optionalText]

instance (name : String) : Decidable (Bare name) :=
  inferInstanceAs (Decidable (_ ∧ _))

theorem writes_text {key : String} (bare : Bare key) (text : String) :
    Writes (key, Toml.quote text) (key, .text text) :=
  ⟨rfl, bare, denotes_quote text⟩

theorem writes_count {key : String} (bare : Bare key) {n : Nat} (fits : n ≤ Decimal.maxSigned) :
    Writes (key, toString n) (key, .integer n) :=
  ⟨rfl, bare, denotes_number fits⟩

theorem writes_optional {key : String} (bare : Bare key) (value : Option String) :
    List.Forall₂ Writes (optional key value) (optionalText key value) := by
  cases value with
  | none => exact .nil
  | some v => exact .cons (writes_text bare v) .nil

theorem writes_section {name : String} (bare : Bare name) {written : List (String × String)}
    {meant : List (String × Scalar)} (h : List.Forall₂ Writes written meant) :
    WritesSection (name, written) (name, meant) :=
  ⟨rfl, bare, h⟩

/-- The sections that a document is written from. -/
def written (s : Settings) : List (Section String) :=
  [("server", [
      ("listen_addr", Toml.quote s.server.listenAddr),
      ("log_level", Toml.quote s.server.logLevel),
      ("max_message_bytes", toString s.server.maxMessageBytes)]),
    ("session", [
      ("bind_timeout_secs", toString s.session.bindTimeoutSecs),
      ("max_sessions", toString s.session.maxSessions),
      ("resize_queue_capacity", toString s.session.resizeQueueCapacity),
      ("stdin_queue_capacity", toString s.session.stdinQueueCapacity)]),
    ("kubectl",
      [("binary", Toml.quote s.kubectl.binary)]
        ++ optional "kubeconfig" s.kubectl.kubeconfig
        ++ optional "default_context" s.kubectl.defaultContext)]

theorem document_written (s : Settings) : s.document = writeSections (written s) := rfl

theorem writes_content {s : Settings} (fits : ∀ n ∈ s.counts, n ≤ Decimal.maxSigned) :
    List.Forall₂ WritesSection (written s) (content s) := by
  simp only [counts, List.forall_mem_cons, List.not_mem_nil, false_implies, implies_true,
    and_true] at fits
  obtain ⟨hmessage, htimeout, hsessions, hresize, hstdin⟩ := fits
  -- each name is one that stands without quotes, which is decided
  refine .cons (writes_section (by decide) ?_) (.cons (writes_section (by decide) ?_)
    (.cons (writes_section (by decide) ?_) .nil))
  · exact .cons (writes_text (by decide) _) (.cons (writes_text (by decide) _)
      (.cons (writes_count (by decide) hmessage) .nil))
  · exact .cons (writes_count (by decide) htimeout)
      (.cons (writes_count (by decide) hsessions)
        (.cons (writes_count (by decide) hresize)
          (.cons (writes_count (by decide) hstdin) .nil)))
  · exact .cons (writes_text (by decide) _)
      (List.rel_append (writes_optional (by decide) _) (writes_optional (by decide) _))

/-- Reading entries that hold what is meant leads from one value to the other. -/
def Takes {α β : Type} (f : Fields α) (R : β → Node → Prop) (a : α) (meant : List (String × β))
    (b : α) : Prop :=
  ∀ entries, List.Forall₂ (Entry R) meant entries → entries.foldlM f.setEntry a = .ok b

section
variable {α β : Type} {f : Fields α} {R : β → Node → Prop} {a b c : α}

theorem takes_nil : Takes f R a [] a := by
  rintro _ ⟨⟩
  rfl

theorem takes_cons {name : String} {x : β} {rest : List (String × β)}
    (set : ∀ node, R x node → f.set name node a = .ok b) (more : Takes f R b rest c) :
    Takes f R a ((name, x) :: rest) c := by
  rintro _ (_ | @⟨_, ⟨key, node⟩, _, entries, ⟨rfl, hnode⟩, hrest⟩)
  rw [List.foldlM_cons, Fields.setEntry, set node hnode]
  exact more entries hrest

theorem takes_scalar {name : String} {x : Scalar} {rest : List (String × Scalar)}
    (set : ∀ stretch, f.set name (.scalar x stretch) a = .ok b)
    (more : Takes f IsScalar b rest c) : Takes f IsScalar a ((name, x) :: rest) c := by
  refine takes_cons ?_ more
  rintro _ ⟨stretch, rfl⟩
  exact set stretch

/-- A setting that is absent is one that was absent before. -/
theorem takes_optional {name : String} {value : Option String} {rest : List (String × Scalar)}
    (absent : value = none → a = b)
    (set : ∀ v, value = some v → ∀ stretch, f.set name (.scalar (.text v) stretch) a = .ok b)
    (more : Takes f IsScalar b rest c) :
    Takes f IsScalar a (optionalText name value ++ rest) c := by
  cases value with
  | none =>
    rw [absent rfl]
    exact more
  | some v => exact takes_scalar (set v rfl) more

end

/-- A table is read entry by entry. -/
theorem read_table {α : Type} {f : Fields α} {a b : α} {pairs : List (String × Scalar)}
    (h : Takes f IsScalar a pairs b) {node : Node} (table : IsTable pairs node) :
    f.read a node = .ok b := by
  obtain ⟨form, stretch, entries, rfl, hentries⟩ := table
  exact h entries hentries

theorem takes_server (s : Server) : Takes serverFields IsScalar {} (serverPairs s) s :=
  takes_scalar (b := { listenAddr := s.listenAddr }) (fun _ => rfl) <|
    takes_scalar (b := { listenAddr := s.listenAddr, logLevel := s.logLevel }) (fun _ => rfl) <|
      takes_scalar (fun _ => rfl) takes_nil

theorem takes_session (s : Settings.Session) :
    Takes sessionFields IsScalar {} (sessionPairs s) s :=
  takes_scalar (b := { bindTimeoutSecs := s.bindTimeoutSecs }) (fun _ => rfl) <|
    takes_scalar (b := { bindTimeoutSecs := s.bindTimeoutSecs, maxSessions := s.maxSessions })
      (fun _ => rfl) <|
      takes_scalar
        (b := { s with stdinQueueCapacity := ({} : Settings.Session).stdinQueueCapacity })
        (fun _ => rfl) <|
        takes_scalar (fun _ => rfl) takes_nil

theorem takes_kubectl (c : Kubectl.Client) :
    Takes kubectlFields IsScalar {} (kubectlPairs c) c := by
  obtain ⟨binary, kubeconfig, context⟩ := c
  have hcontext : Takes kubectlFields IsScalar { binary, kubeconfig }
      (optionalText "default_context" context ++ []) ⟨binary, kubeconfig, context⟩ := by
    refine takes_optional ?_ ?_ takes_nil
    · rintro rfl
      rfl
    · rintro v rfl stretch
      rfl
  have hkubeconfig : Takes kubectlFields IsScalar { binary }
      (optionalText "kubeconfig" kubeconfig ++ (optionalText "default_context" context ++ []))
      ⟨binary, kubeconfig, context⟩ := by
    refine takes_optional ?_ ?_ hcontext
    · rintro rfl
      rfl
    · rintro v rfl stretch
      rfl
  rw [List.append_nil] at hkubeconfig
  exact takes_scalar (fun _ => rfl) hkubeconfig

theorem takes_content (s : Settings) : Takes sections IsTable {} (content s) s := by
  refine takes_cons (b := { server := s.server }) ?_
    (takes_cons (b := { server := s.server, session := s.session }) ?_
      (takes_cons ?_ takes_nil))
  · intro node table
    simp only [sections, read_table (takes_server s.server) table]
    rfl
  · intro node table
    simp only [sections, read_table (takes_session s.session) table]
    rfl
  · intro node table
    simp only [sections, read_table (takes_kubectl s.kubectl) table]
    rfl

theorem read_document {s : Settings} (fits : ∀ n ∈ s.counts, n ≤ Decimal.maxSigned) :
    Settings.read s.document = .ok s := by
  obtain ⟨hnames, hkeys⟩ := content_distinct s
  obtain ⟨doc, hread, hentries⟩ := read_sections (writes_content fits) hnames hkeys
  have hdocument : ofDocument doc = .ok s := takes_content s doc hentries
  rw [document_written]
  simp [Settings.read, hread, hdocument]

theorem writable_iff (s : Settings) :
    s.isWritable = true ↔ ∀ n ∈ s.counts, n ≤ Decimal.maxSigned := by
  simp [isWritable]

theorem read_written {s : Settings} {text : String} (h : s.write? = some text) :
    Settings.read text = .ok s := by
  unfold write? at h
  split at h
  · rename_i hfits
    cases h
    exact read_document ((writable_iff s).mp hfits)
  · cases h

/-- Settings have a document as long as each of their numbers is one that TOML has, and the document
is read as the same settings: every text, every number, and what is absent. -/
theorem settings_read_back (s : Settings) :
    ((∃ t, s.write? = some t) ↔
      s.server.maxMessageBytes ≤ 0x7FFFFFFFFFFFFFFF ∧
        s.session.bindTimeoutSecs ≤ 0x7FFFFFFFFFFFFFFF ∧
        s.session.maxSessions ≤ 0x7FFFFFFFFFFFFFFF ∧
        s.session.resizeQueueCapacity ≤ 0x7FFFFFFFFFFFFFFF ∧
        s.session.stdinQueueCapacity ≤ 0x7FFFFFFFFFFFFFFF) ∧
      ∀ t, s.write? = some t → Settings.read t = .ok s := by
  refine ⟨?_, fun t h => read_written h⟩
  have hcounts := writable_iff s
  simp only [counts, List.forall_mem_cons, List.not_mem_nil, false_implies, implies_true,
    and_true] at hcounts
  rw [write?, ← Option.isSome_iff_exists, Option.isSome_ite]
  exact hcounts

/-- Settings with a path that needs other quotes than most, and a context of two lines. -/
def quotedSettings : Settings where
  server := { maxMessageBytes := 0x7FFFFFFFFFFFFFFF }
  kubectl := { kubeconfig := some "C:\\it's \"here\"", defaultContext := some "a\n'''\x00" }

theorem quoted_settings_read_back :
    ∃ t, quotedSettings.write? = some t ∧ Settings.read t = .ok quotedSettings := by
  have h : ∃ t, quotedSettings.write? = some t :=
    (settings_read_back quotedSettings).1.mpr (by decide)
  obtain ⟨t, ht⟩ := h
  exact ⟨t, ht, (settings_read_back quotedSettings).2 t ht⟩

end PodConsole.Proofs.SettingsRoundTrip
