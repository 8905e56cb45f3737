import PodConsole.Proofs.Toml.Building
import PodConsole.Settings.Document

namespace PodConsole.Proofs.SettingsOverlay
open Settings Toml TomlContents TomlBuilding

inductive Setting where
  | listenAddr
  | logLevel
  | maxMessageBytes
  | bindTimeoutSecs
  | maxSessions
  | resizeQueueCapacity
  | stdinQueueCapacity
  | binary
  | kubeconfig
  | defaultContext

namespace Setting

/-- The names of its section and its key. -/
def path : Setting → List String
  | listenAddr => ["server", "listen_addr"]
  | logLevel => ["server", "log_level"]
  | maxMessageBytes => ["server", "max_message_bytes"]
  | bindTimeoutSecs => ["session", "bind_timeout_secs"]
  | maxSessions => ["session", "max_sessions"]
  | resizeQueueCapacity => ["session", "resize_queue_capacity"]
  | stdinQueueCapacity => ["session", "stdin_queue_capacity"]
  | binary => ["kubectl", "binary"]
  | kubeconfig => ["kubectl", "kubeconfig"]
  | defaultContext => ["kubectl", "default_context"]

/-- What settings hold for it, as a document would write it. Two of them may be absent. -/
def value : Setting → Settings → Option Scalar
  | listenAddr, s => some (.text s.server.listenAddr)
  | logLevel, s => some (.text s.server.logLevel)
  | maxMessageBytes, s => some (.integer s.server.maxMessageBytes)
  | bindTimeoutSecs, s => some (.integer s.session.bindTimeoutSecs)
  | maxSessions, s => some (.integer s.session.maxSessions)
  | resizeQueueCapacity, s => some (.integer s.session.resizeQueueCapacity)
  | stdinQueueCapacity, s => some (.integer s.session.stdinQueueCapacity)
  | binary, s => some (.text s.kubectl.binary)
  | kubeconfig, s => s.kubectl.kubeconfig.map .text
  | defaultContext, s => s.kubectl.defaultContext.map .text

end Setting

def IsText (x : Scalar) : Prop := ∃ v, x = .text v

def IsCount (x : Scalar) : Prop := ∃ n : Nat, x = .integer n

def Setting.Suits : Setting → Scalar → Prop
  | listenAddr | logLevel | binary | kubeconfig | defaultContext => IsText
  | maxMessageBytes | bindTimeoutSecs | maxSessions | resizeQueueCapacity | stdinQueueCapacity =>
    IsCount

/-- A node gives the value of a setting that takes values of one kind. -/
def Gives (Suits : Scalar → Prop) (n : Node) (value : Option Scalar) : Prop :=
  ∃ x stretch, n = .scalar x stretch ∧ Suits x ∧ value = some x

def Setting.Fits (setting : Setting) (n : Node) : Prop :=
  ∃ x stretch, n = .scalar x stretch ∧ setting.Suits x

theorem value_ext {s s' : Settings} (h : ∀ setting : Setting, setting.value s = setting.value s') :
    s = s' := by
  have texts : Function.Injective Scalar.text := fun _ _ h => by injection h
  have text {v v' : String} (h : some (Scalar.text v) = some (.text v')) : v = v' :=
    texts (Option.some.inj h)
  have count {k k' : Nat} (h : some (Scalar.integer k) = some (.integer k')) : k = k' := by
    injection Option.some.inj h with hk
    exact Int.ofNat.inj hk
  obtain ⟨⟨a, l, m⟩, ⟨b, n, r, i⟩, ⟨p, k, c⟩⟩ := s
  obtain ⟨⟨a', l', m'⟩, ⟨b', n', r', i'⟩, ⟨p', k', c'⟩⟩ := s'
  obtain rfl : a = a' := text (h .listenAddr)
  obtain rfl : l = l' := text (h .logLevel)
  obtain rfl : m = m' := count (h .maxMessageBytes)
  obtain rfl : b = b' := count (h .bindTimeoutSecs)
  obtain rfl : n = n' := count (h .maxSessions)
  obtain rfl : r = r' := count (h .resizeQueueCapacity)
  obtain rfl : i = i' := count (h .stdinQueueCapacity)
  obtain rfl : p = p' := text (h .binary)
  obtain rfl : k = k' := Option.map_injective texts (h .kubeconfig)
  obtain rfl : c = c' := Option.map_injective texts (h .defaultContext)
  rfl

theorem map_ok {ε α β : Type} {r : Except ε α} {g : α → β} {b : β} (h : r.map g = .ok b) :
    ∃ a, r = .ok a ∧ b = g a := by
  cases r with
  | error e => cases h
  | ok a =>
    cases h
    exact ⟨a, rfl, rfl⟩

theorem map_taken {ε α β : Type} {r : Except ε α} (h : ∃ a, r = .ok a) (g : α → β) :
    ∃ b, r.map g = .ok b := by
  obtain ⟨a, rfl⟩ := h
  exact ⟨g a, rfl⟩

theorem string_given {wanted v : String} {n : Node} (h : readString wanted n = .ok v) :
    Gives IsText n (some (.text v)) := by
  unfold readString at h
  split at h
  · next stretch =>
    cases h
    exact ⟨_, stretch, rfl, ⟨v, rfl⟩, rfl⟩
  · cases h

theorem count_given {wanted : String} {n : Node} {k : Nat} (h : readCount wanted n = .ok k) :
    Gives IsCount n (some (.integer k)) := by
  unfold readCount at h
  split at h
  · next i stretch =>
    split at h
    · next nonnegative =>
      cases h
      refine ⟨.integer i, stretch, rfl, ⟨i.toNat, ?_⟩, ?_⟩ <;> rw [Int.toNat_of_nonneg nonnegative]
    · cases h
  · cases h

theorem string_taken {n : Node} (h : ∃ x stretch, n = .scalar x stretch ∧ IsText x)
    (wanted : String) : ∃ v, readString wanted n = .ok v := by
  obtain ⟨_, stretch, rfl, v, rfl⟩ := h
  exact ⟨v, rfl⟩

theorem count_taken {n : Node} (h : ∃ x stretch, n = .scalar x stretch ∧ IsCount x)
    (wanted : String) : ∃ k, readCount wanted n = .ok k := by
  obtain ⟨_, stretch, rfl, k, rfl⟩ := h
  exact ⟨k, by rw [readCount, if_pos (Int.natCast_nonneg k), Int.toNat_natCast]⟩

/-- One part of what fields describe: the entry of one name determines it, and no other entry
touches it. -/
structure Decides {α β : Type} (f : Fields α) (name : String) (get : α → β)
    (R : Node → β → Prop) : Prop where
  own : ∀ {n a b}, f.set name n a = .ok b → R n (get b)
  other : ∀ {name' n a b}, name' ≠ name → f.set name' n a = .ok b → get b = get a

theorem Decides.of_read {α β γ : Type} {f : Fields α} {name : String} {get : α → β}
    {R : Node → β → Prop} {read : Node → Except Misplaced γ} {put : α → γ → α}
    (set : ∀ n a, f.set name n a = (read n).map (put a))
    (own : ∀ {n v} a, read n = .ok v → R n (get (put a v)))
    (other : ∀ {name' n a b}, name' ≠ name → f.set name' n a = .ok b → get b = get a) :
    Decides f name get R where
  own h := by
    obtain ⟨v, hread, rfl⟩ := map_ok ((set ..).symm.trans h)
    exact own _ hread
  other := other

theorem server_other {name : String} {n : Node} {a b : Server}
    (h : serverFields.set name n a = .ok b) :
    (name ≠ "listen_addr" → b.listenAddr = a.listenAddr) ∧
      (name ≠ "log_level" → b.logLevel = a.logLevel) ∧
      (name ≠ "max_message_bytes" → b.maxMessageBytes = a.maxMessageBytes) := by
  simp only [serverFields] at h
  split at h
  case h_4 =>
    cases h
    simp
  all_goals
    obtain ⟨_, _, rfl⟩ := map_ok h
    simp

theorem session_other {name : String} {n : Node} {a b : Settings.Session}
    (h : sessionFields.set name n a = .ok b) :
    (name ≠ "bind_timeout_secs" → b.bindTimeoutSecs = a.bindTimeoutSecs) ∧
      (name ≠ "max_sessions" → b.maxSessions = a.maxSessions) ∧
      (name ≠ "resize_queue_capacity" → b.resizeQueueCapacity = a.resizeQueueCapacity) ∧
      (name ≠ "stdin_queue_capacity" → b.stdinQueueCapacity = a.stdinQueueCapacity) := by
  simp only [sessionFields] at h
  split at h
  case h_5 =>
    cases h
    simp
  all_goals
    obtain ⟨_, _, rfl⟩ := map_ok h
    simp

theorem kubectl_other {name : String} {n : Node} {a b : Kubectl.Client}
    (h : kubectlFields.set name n a = .ok b) :
    (name ≠ "binary" → b.binary = a.binary) ∧
      (name ≠ "kubeconfig" → b.kubeconfig = a.kubeconfig) ∧
      (name ≠ "default_context" → b.defaultContext = a.defaultContext) := by
  simp only [kubectlFields] at h
  split at h
  case h_4 =>
    cases h
    simp
  all_goals
    obtain ⟨_, _, rfl⟩ := map_ok h
    simp

theorem sections_other {name : String} {n : Node} {a b : Settings}
    (h : sections.set name n a = .ok b) :
    (name ≠ "server" → b.server = a.server) ∧ (name ≠ "session" → b.session = a.session) ∧
      (name ≠ "kubectl" → b.kubectl = a.kubectl) := by
  simp only [sections] at h
  split at h
  case h_4 =>
    cases h
    simp
  all_goals
    obtain ⟨_, _, rfl⟩ := map_ok h
    simp

theorem server_decides :
    Decides serverFields "listen_addr" (fun s => some (.text s.listenAddr)) (Gives IsText) ∧
      Decides serverFields "log_level" (fun s => some (.text s.logLevel)) (Gives IsText) ∧
      Decides serverFields "max_message_bytes" (fun s => some (.integer s.maxMessageBytes))
        (Gives IsCount) := by
  refine ⟨.of_read (fun _ _ => rfl) (fun _ => string_given) ?_,
    .of_read (fun _ _ => rfl) (fun _ => string_given) ?_,
    .of_read (fun _ _ => rfl) (fun _ => count_given) ?_⟩ <;> intro name n a b hne h
  · rw [(server_other h).1 hne]
  · rw [(server_other h).2.1 hne]
  · rw [(server_other h).2.2 hne]

theorem session_decides :
    Decides sessionFields "bind_timeout_secs" (fun s => some (.integer s.bindTimeoutSecs))
        (Gives IsCount) ∧
      Decides sessionFields "max_sessions" (fun s => some (.integer s.maxSessions))
        (Gives IsCount) ∧
      Decides sessionFields "resize_queue_capacity"
        (fun s => some (.integer s.resizeQueueCapacity)) (Gives IsCount) ∧
      Decides sessionFields "stdin_queue_capacity"
        (fun s => some (.integer s.stdinQueueCapacity)) (Gives IsCount) := by
  refine ⟨.of_read (fun _ _ => rfl) (fun _ => count_given) ?_,
    .of_read (fun _ _ => rfl) (fun _ => count_given) ?_,
    .of_read (fun _ _ => rfl) (fun _ => count_given) ?_,
    .of_read (fun _ _ => rfl) (fun _ => count_given) ?_⟩ <;> intro name n a b hne h
  · rw [(session_other h).1 hne]
  · rw [(session_other h).2.1 hne]
  · rw [(session_other h).2.2.1 hne]
  · rw [(session_other h).2.2.2 hne]

theorem kubectl_decides :
    Decides kubectlFields "binary" (fun c => some (.text c.binary)) (Gives IsText) ∧
      Decides kubectlFields "kubeconfig" (fun c => c.kubeconfig.map .text) (Gives IsText) ∧
      Decides kubectlFields "default_context" (fun c => c.defaultContext.map .text)
        (Gives IsText) := by
  refine ⟨.of_read (fun _ _ => rfl) (fun _ => string_given) ?_,
    .of_read (fun _ _ => rfl) (fun _ => string_given) ?_,
    .of_read (fun _ _ => rfl) (fun _ => string_given) ?_⟩ <;> intro name n a b hne h
  · rw [(kubectl_other h).1 hne]
  · rw [(kubectl_other h).2.1 hne]
  · rw [(kubectl_other h).2.2 hne]

theorem set_entry {α : Type} {f : Fields α} {a b : α} {e : Key × Node}
    (h : f.setEntry a e = .ok b) : f.set e.1.name e.2 a = .ok b := by
  unfold Fields.setEntry at h
  split at h
  · next hset => rw [hset, h]
  · cases h

theorem Decides.entries {α β : Type} {f : Fields α} {name : String} {get : α → β}
    {R : Node → β → Prop} (decides : Decides f name get R) {entries : List (Key × Node)} {a b : α}
    (distinct : (entries.map (·.1.name)).Nodup) (h : entries.foldlM f.setEntry a = .ok b) :
    (∀ e ∈ entries, e.1.name = name → R e.2 (get b)) ∧
      ((∀ e ∈ entries, e.1.name ≠ name) → get b = get a) := by
  induction entries generalizing a with
  | nil =>
    cases h
    exact ⟨by simp, fun _ => rfl⟩
  | cons e entries ih =>
    obtain ⟨hfresh, hdistinct⟩ := List.nodup_cons.mp distinct
    rw [List.foldlM_cons] at h
    cases hset : f.setEntry a e with
    | error m =>
      rw [hset] at h
      cases h
    | ok a₁ =>
      rw [hset] at h
      obtain ⟨htaken, hleft⟩ := ih hdistinct h
      refine ⟨fun e' he' hname => ?_, fun hnone => ?_⟩
      · obtain rfl | hmem := List.mem_cons.mp he'
        · -- names are distinct, so no later entry touches what this one determines
          have hlater : ∀ e'' ∈ entries, e''.1.name ≠ name := fun e'' he'' same =>
            hfresh (List.mem_map.mpr ⟨e'', he'', same.trans hname.symm⟩)
          rw [hleft hlater]
          exact decides.own (hname ▸ set_entry hset)
        · exact htaken e' hmem hname
      · obtain ⟨hne, hrest⟩ := List.forall_mem_cons.mp hnone
        rw [hleft hrest, decides.other hne (set_entry hset)]

/-- A section of the document and the part of the settings that it describes. -/
structure Describes {β : Type} (f : Fields β) (name : String) (part : Settings → β) : Prop where
  whole : Decides sections name part fun n v => f.read (part {}) n = .ok v
  /-- What the first item would set, if the section were written as an array. -/
  first : ∃ key rest Suits, ∃ get : β → Option Scalar,
    f.names = key :: rest ∧ Decides f key get (Gives Suits)

theorem sections_describe :
    Describes serverFields "server" (·.server) ∧ Describes sessionFields "session" (·.session) ∧
      Describes kubectlFields "kubectl" (·.kubectl) := by
  refine ⟨⟨.of_read (fun _ _ => rfl) (fun _ => id) ?_, _, _, _, _, rfl, server_decides.1⟩,
    ⟨.of_read (fun _ _ => rfl) (fun _ => id) ?_, _, _, _, _, rfl, session_decides.1⟩,
    ⟨.of_read (fun _ _ => rfl) (fun _ => id) ?_, _, _, _, _, rfl, kubectl_decides.1⟩⟩ <;>
    intro name n a b hne h
  · exact (sections_other h).1 hne
  · exact (sections_other h).2.1 hne
  · exact (sections_other h).2.2 hne

/-- A node of the document, with the names that lead to it through tables. -/
def At (entries : List (Key × Node)) : List String → Node → Prop
  | [], _ => False
  | [name], n => ∃ e ∈ entries, e.1.name = name ∧ e.2 = n
  | name :: rest, n => ∃ e ∈ entries, e.1.name = name ∧ ∃ t : Table, e.2 = t.node ∧ At t.entries rest n

theorem At.bound {entries : List (Key × Node)} {p : List String} {n : Node} (h : At entries p n)
    (whole : IsValue n) : (p, n) ∈ bound entries := by
  induction p generalizing entries with
  | nil => cases h
  | cons name rest ih =>
    cases rest with
    | nil =>
      obtain ⟨e, he, rfl, rfl⟩ := h
      exact mem_bound.mpr ⟨e, he, [], rfl, .value whole⟩
    | cons next rest =>
      obtain ⟨e, he, rfl, t, ht, hinside⟩ := h
      refine mem_bound.mpr ⟨e, he, next :: rest, rfl, ?_⟩
      rw [ht, Table.node, held_table]
      exact ih hinside

/-- The sections that settings have are tables, as far as they are there. -/
def InTables (doc : Document) : Prop :=
  ∀ e ∈ doc, e.1.name ∈ sections.names → ∃ t : Table, e.2 = t.node

/-- What a setting has become, by what the document has at its path. -/
structure Overlaid (path : List String) (Suits : Scalar → Prop) (value : Settings → Option Scalar)
    (doc : Document) (s : Settings) : Prop where
  taken : ∀ n, At doc path n → Gives Suits n (value s)
  left : InTables doc → (∀ n, ¬ At doc path n) → value s = value {}
  /-- A value that has the path is found there through tables alone. -/
  reached : ∀ x, (path, x) ∈ bound doc → At doc path x

/-- Headers of a section that repeat it put tables where its first settings would be. -/
theorem no_repeated {β : Type} {f : Fields β} {name : String} {part : Settings → β}
    (describes : Describes f name part) {items : List Node} (tidy : Tidy (.tables items)) {a b : β}
    (h : f.read a (.tables items) = .ok b) : items = [] := by
  obtain ⟨key, rest, Suits, get, hnames, decides⟩ := describes.first
  cases items with
  | nil => rfl
  | cons n items =>
    obtain ⟨t, rfl⟩ := (tidy_tables tidy).1 n List.mem_cons_self
    rw [Fields.read, hnames, List.zip_cons_cons, List.foldlM_cons] at h
    dsimp only at h
    cases hset : f.set key t.node a with
    | error m =>
      rw [hset] at h
      cases h
    | ok a₁ =>
      obtain ⟨x, stretch, htable, _⟩ := decides.own hset
      cases htable

section
variable {β : Type} {f : Fields β} {name key : String} {part : Settings → β}
  {view : β → Option Scalar} {Suits : Scalar → Prop} {doc : Document} {s : Settings}

theorem Describes.entries (describes : Describes f name part)
    (decides : Decides f key view (Gives Suits)) (neat : Neat doc) (h : ofDocument doc = .ok s)
    {e : Key × Node} (he : e ∈ doc) (named : e.1.name = name) {t : Table} (ht : e.2 = t.node) :
    (∀ e' ∈ t.entries, e'.1.name = key → Gives Suits e'.2 (view (part s))) ∧
      ((∀ e' ∈ t.entries, e'.1.name ≠ key) → view (part s) = view (part {})) := by
  have hread := (describes.whole.entries neat.distinct h).1 e he named
  have htidy := neat.tidy e he
  rw [ht] at hread htidy
  exact decides.entries (tidy_table.mp htidy).distinct hread

theorem Describes.taken (describes : Describes f name part)
    (decides : Decides f key view (Gives Suits)) (neat : Neat doc) (h : ofDocument doc = .ok s)
    {n : Node} (hat : At doc [name, key] n) : Gives Suits n (view (part s)) := by
  obtain ⟨e, he, named, t, ht, e', he', hkey, rfl⟩ := hat
  exact (describes.entries decides neat h he named ht).1 e' he' hkey

theorem Describes.left (describes : Describes f name part)
    (decides : Decides f key view (Gives Suits)) (neat : Neat doc) (h : ofDocument doc = .ok s)
    (known : name ∈ sections.names) (tables : InTables doc)
    (absent : ∀ n, ¬ At doc [name, key] n) : view (part s) = view (part {}) := by
  by_cases hthere : ∃ e ∈ doc, e.1.name = name
  · obtain ⟨e, he, named⟩ := hthere
    obtain ⟨t, ht⟩ := tables e he (named ▸ known)
    refine (describes.entries decides neat h he named ht).2 fun e' he' hkey => ?_
    exact absent e'.2 ⟨e, he, named, t, ht, e', he', hkey, rfl⟩
  · have hnone := (describes.whole.entries neat.distinct h).2
    exact congrArg view (hnone fun e he named => hthere ⟨e, he, named⟩)

theorem Describes.reached (describes : Describes f name part)
    (decides : Decides f key view (Gives Suits)) (neat : Neat doc) (h : ofDocument doc = .ok s)
    {x : Node} (hx : ([name, key], x) ∈ bound doc) : At doc [name, key] x := by
  obtain ⟨e, he, q, hpath, hinside⟩ := mem_bound.mp hx
  obtain ⟨named, rfl⟩ := List.cons.inj hpath
  cases hnode : e.2 with
  | scalar _ _ | array _ _ =>
    rw [hnode] at hinside
    nomatch hinside
  | tables items =>
    have hread := (describes.whole.entries neat.distinct h).1 e he named.symm
    have htidy := neat.tidy e he
    rw [hnode] at hread htidy hinside
    rw [no_repeated describes htidy hread, held_tables] at hinside
    simp at hinside
  | table form stretch entries =>
    rw [hnode, held_table] at hinside
    obtain ⟨e', he', q, hkey, hvalue⟩ := mem_bound.mp hinside
    obtain ⟨rfl, rfl⟩ := List.cons.inj hkey
    have hat : At doc [name, e'.1.name] e'.2 :=
      ⟨e, he, named.symm, ⟨form, stretch, entries⟩, hnode, e', he', rfl, rfl⟩
    -- it is a scalar, so there is nothing below it that the value could be
    obtain ⟨y, stretch', hscalar, _⟩ := describes.taken decides neat h hat
    rw [hscalar] at hvalue hat
    cases hvalue
    exact hat

theorem overlaid (known : name ∈ sections.names) (describes : Describes f name part)
    (decides : Decides f key view (Gives Suits)) (neat : Neat doc) (h : ofDocument doc = .ok s) :
    Overlaid [name, key] Suits (fun s => view (part s)) doc s where
  taken _ := describes.taken decides neat h
  left := describes.left decides neat h known
  reached _ := describes.reached decides neat h

end

theorem setting_overlaid (setting : Setting) {doc : Document} {s : Settings} (neat : Neat doc)
    (h : ofDocument doc = .ok s) : Overlaid setting.path setting.Suits setting.value doc s := by
  obtain ⟨hserver, hsession, hkubectl⟩ := sections_describe
  cases setting with
  | listenAddr => exact (overlaid (by decide) hserver server_decides.1 neat h :)
  | logLevel => exact (overlaid (by decide) hserver server_decides.2.1 neat h :)
  | maxMessageBytes => exact (overlaid (by decide) hserver server_decides.2.2 neat h :)
  | bindTimeoutSecs => exact (overlaid (by decide) hsession session_decides.1 neat h :)
  | maxSessions => exact (overlaid (by decide) hsession session_decides.2.1 neat h :)
  | resizeQueueCapacity => exact (overlaid (by decide) hsession session_decides.2.2.1 neat h :)
  | stdinQueueCapacity => exact (overlaid (by decide) hsession session_decides.2.2.2 neat h :)
  | binary => exact (overlaid (by decide) hkubectl kubectl_decides.1 neat h :)
  | kubeconfig => exact (overlaid (by decide) hkubectl kubectl_decides.2.1 neat h :)
  | defaultContext => exact (overlaid (by decide) hkubectl kubectl_decides.2.2 neat h :)

theorem set_taken {α : Type} {f : Fields α} {a b : α} {e : Key × Node}
    (h : f.set e.1.name e.2 a = .ok b) : f.setEntry a e = .ok b := by
  rw [Fields.setEntry, h]

theorem entries_taken {α : Type} {f : Fields α} {entries : List (Key × Node)}
    (h : ∀ e ∈ entries, ∀ a, ∃ b, f.set e.1.name e.2 a = .ok b) (a : α) :
    ∃ b, entries.foldlM f.setEntry a = .ok b := by
  induction entries generalizing a with
  | nil => exact ⟨a, rfl⟩
  | cons e entries ih =>
    obtain ⟨he, hentries⟩ := List.forall_mem_cons.mp h
    obtain ⟨a₁, hset⟩ := he a
    obtain ⟨b, hrest⟩ := ih hentries a₁
    refine ⟨b, ?_⟩
    rw [List.foldlM_cons, set_taken hset]
    exact hrest

theorem table_taken {α : Type} {f : Fields α} {n : Node} (table : ∃ t : Table, n = t.node)
    (h : ∀ t : Table, n = t.node → ∀ e ∈ t.entries, ∀ a, ∃ b, f.set e.1.name e.2 a = .ok b)
    (a : α) : ∃ b, f.read a n = .ok b := by
  obtain ⟨t, rfl⟩ := table
  exact entries_taken (h t rfl) a

section
variable {key : String} {n : Node}

theorem server_taken
    (fits : ∀ setting : Setting, setting.path = ["server", key] → setting.Fits n) (a : Server) :
    ∃ b, serverFields.set key n a = .ok b := by
  simp only [serverFields]
  split
  · exact map_taken (string_taken (fits .listenAddr rfl) _) _
  · exact map_taken (string_taken (fits .logLevel rfl) _) _
  · exact map_taken (count_taken (fits .maxMessageBytes rfl) _) _
  · exact ⟨a, rfl⟩

theorem session_taken
    (fits : ∀ setting : Setting, setting.path = ["session", key] → setting.Fits n)
    (a : Settings.Session) : ∃ b, sessionFields.set key n a = .ok b := by
  simp only [sessionFields]
  split
  · exact map_taken (count_taken (fits .bindTimeoutSecs rfl) _) _
  · exact map_taken (count_taken (fits .maxSessions rfl) _) _
  · exact map_taken (count_taken (fits .resizeQueueCapacity rfl) _) _
  · exact map_taken (count_taken (fits .stdinQueueCapacity rfl) _) _
  · exact ⟨a, rfl⟩

theorem kubectl_taken
    (fits : ∀ setting : Setting, setting.path = ["kubectl", key] → setting.Fits n)
    (a : Kubectl.Client) : ∃ b, kubectlFields.set key n a = .ok b := by
  simp only [kubectlFields]
  split
  · exact map_taken (string_taken (fits .binary rfl) _) _
  · exact map_taken (string_taken (fits .kubeconfig rfl) _) _
  · exact map_taken (string_taken (fits .defaultContext rfl) _) _
  · exact ⟨a, rfl⟩

end

theorem fitting_taken {doc : Document} (tables : InTables doc)
    (fits : ∀ (setting : Setting) n, At doc setting.path n → setting.Fits n) :
    ∃ s, ofDocument doc = .ok s := by
  refine entries_taken (f := sections) (fun e he a => ?_) {}
  have hinside (t : Table) (ht : e.2 = t.node) (e' : Key × Node) (he' : e' ∈ t.entries)
      (setting : Setting) (hpath : setting.path = [e.1.name, e'.1.name]) : setting.Fits e'.2 :=
    fits setting e'.2 (hpath ▸ ⟨e, he, rfl, t, ht, e', he', rfl, rfl⟩)
  have htable := tables e he
  generalize e.1.name = name at htable hinside
  simp only [sections] at htable ⊢
  split
  · exact map_taken (table_taken (htable (by simp))
      (fun t ht e' he' => server_taken (hinside t ht e' he')) _) _
  · exact map_taken (table_taken (htable (by simp))
      (fun t ht e' he' => session_taken (hinside t ht e' he')) _) _
  · exact map_taken (table_taken (htable (by simp))
      (fun t ht e' he' => kubectl_taken (hinside t ht e' he')) _) _
  · exact ⟨a, rfl⟩

/-- A document binds a setting to a value, be it by headers, by dotted keys or in braces. -/
def Tells (ss : List Statement) (setting : Setting) (x : Scalar) : Prop :=
  ∃ stretch, (setting.path, .scalar x stretch) ∈ told [] ss

/-- The settings that are read from a text with its sections in tables, and its statements. -/
structure Accepted (text : String) (ss : List Statement) (s : Settings) : Prop where
  written : statements text = some ss
  tables : ∃ doc, Document.ofStatements? ss = some doc ∧ InTables doc
  read : Settings.read text = .ok s

theorem read_iff {text : String} {ss : List Statement} {doc : Document} {s : Settings}
    (written : statements text = some ss) (built : Document.ofStatements? ss = some doc) :
    Settings.read text = .ok s ↔ ofDocument doc = .ok s := by
  have hdoc : Document.read? text = some doc := by
    rw [Document.read?, written]
    exact built
  simp only [Settings.read, hdoc]
  cases ofDocument doc <;> simp

theorem Gives.fits {setting : Setting} {n : Node} {value : Option Scalar}
    (h : Gives setting.Suits n value) : setting.Fits n := by
  obtain ⟨x, stretch, hn, hx, -⟩ := h
  exact ⟨x, stretch, hn, hx⟩

/-- A document of settings is the defaults with its own values laid over them. What is accepted has
each setting as it is bound, and by default where it is not bound; so it does not matter how and in
which order documents bind their settings, nor what else they bind. Where a setting is bound to what
is no value for it, be it of another type, a negative number or a table, nothing is accepted; where
each is bound to a value for it, the document is. -/
theorem settings_overlay_defaults :
    (∀ text ss s, Accepted text ss s → ∀ setting : Setting,
      (∀ x, Tells ss setting x → setting.value s = some x) ∧
        ((∀ x, ¬ Tells ss setting x) → setting.value s = setting.value {})) ∧
    (∀ text ss s text' ss' s', Accepted text ss s → Accepted text' ss' s' →
      (∀ setting x, Tells ss setting x ↔ Tells ss' setting x) → s = s') ∧
    ∀ text ss doc, statements text = some ss → Document.ofStatements? ss = some doc →
      (∀ (setting : Setting) n, (setting.path, n) ∈ told [] ss ∨ At doc setting.path n →
        ¬ setting.Fits n → ∀ s, Settings.read text ≠ .ok s) ∧
      (InTables doc → (∀ (setting : Setting) n, At doc setting.path n → setting.Fits n) →
        ∃ s, Settings.read text = .ok s) := by
  have hvalues : ∀ text ss s, Accepted text ss s → ∀ setting : Setting,
      (∀ x, Tells ss setting x → setting.value s = some x) ∧
        ((∀ x, ¬ Tells ss setting x) → setting.value s = setting.value {}) := by
    rintro text ss s ⟨hwritten, ⟨doc, hbuilt, htables⟩, hread⟩ setting
    obtain ⟨hneat, htold⟩ := read_holds hwritten hbuilt
    have hover := setting_overlaid setting hneat ((read_iff hwritten hbuilt).mp hread)
    refine ⟨?_, fun hnone => hover.left htables fun n hat => ?_⟩
    · rintro x ⟨stretch, htells⟩
      obtain ⟨y, _, hsame, _, hvalue⟩ := hover.taken _ (hover.reached _ (htold ▸ htells))
      cases hsame
      exact hvalue
    · obtain ⟨x, stretch, rfl, -⟩ := hover.taken n hat
      exact hnone x ⟨stretch, htold ▸ hat.bound trivial⟩
  refine ⟨hvalues, ?_, ?_⟩
  · intro text ss s text' ss' s' h h' hsame
    refine value_ext fun setting => ?_
    obtain ⟨htaken, hleft⟩ := hvalues text ss s h setting
    obtain ⟨htaken', hleft'⟩ := hvalues text' ss' s' h' setting
    by_cases htells : ∃ x, Tells ss setting x
    · obtain ⟨x, hx⟩ := htells
      rw [htaken x hx, htaken' x ((hsame setting x).mp hx)]
    · have hnone : ∀ x, ¬ Tells ss setting x := not_exists.mp htells
      rw [hleft hnone, hleft' fun x hx => hnone x ((hsame setting x).mpr hx)]
  · intro text ss doc hwritten hbuilt
    obtain ⟨hneat, htold⟩ := read_holds hwritten hbuilt
    refine ⟨fun setting n hbinds hmisfit s hread => ?_, fun htables hfits => ?_⟩
    · have hover := setting_overlaid setting hneat ((read_iff hwritten hbuilt).mp hread)
      have hat : At doc setting.path n := hbinds.elim (fun h => hover.reached n (htold ▸ h)) id
      exact hmisfit (hover.taken n hat).fits
    · obtain ⟨s, hs⟩ := fitting_taken htables hfits
      exact ⟨s, (read_iff hwritten hbuilt).mpr hs⟩

def headers : String := "[session]\nmax_sessions = 3 # few\n"

def headersSaid : List Statement := [
  .header [] ⟨"session", ⟨32, 25⟩⟩ false ⟨33, 24⟩,
  .binding [] ⟨"max_sessions", ⟨23, 11⟩⟩ (.scalar (.integer 3) ⟨8, 7⟩)]

def braces : String := "session = \x7b max_sessions = 0x3 \x7d\n[extra]\nserver = 5\n"

def bracesSaid : List Statement := [
  .binding [] ⟨"session", ⟨52, 45⟩⟩ (.table .inline (some ⟨42, 20⟩)
    [(⟨"max_sessions", ⟨40, 28⟩⟩, .scalar (.integer 3) ⟨25, 22⟩)]),
  .header [] ⟨"extra", ⟨18, 13⟩⟩ false ⟨19, 12⟩,
  .binding [] ⟨"server", ⟨11, 5⟩⟩ (.scalar (.integer 5) ⟨2, 1⟩)]

def fewSessions : Settings := { session := { maxSessions := 3 } }

theorem headers_written : statements headers = some headersSaid := by
  simp only [statements, headers, String.reduceToList]
  rfl

theorem braces_written : statements braces = some bracesSaid := by
  simp only [statements, braces, String.reduceToList]
  rfl

theorem headers_accepted : Accepted headers headersSaid fewSessions where
  written := headers_written
  tables := by
    refine ⟨_, by rfl, ?_⟩
    intro e he
    obtain rfl := List.mem_singleton.mp he
    exact fun _ => ⟨⟨_, _, _⟩, rfl⟩
  read := (read_iff headers_written rfl).mpr rfl

theorem braces_accepted : Accepted braces bracesSaid fewSessions where
  written := braces_written
  tables := by
    refine ⟨_, by rfl, ?_⟩
    intro e he
    obtain rfl | he := List.mem_cons.mp he
    · exact fun _ => ⟨⟨_, _, _⟩, rfl⟩
    · obtain rfl := List.mem_singleton.mp he
      simp [sections]
  read := (read_iff braces_written rfl).mpr rfl

theorem headers_tell (setting : Setting) (x : Scalar) :
    Tells headersSaid setting x ↔ setting.path = ["session", "max_sessions"] ∧ x = .integer 3 := by
  simp [Tells, headersSaid, told, bindings, held_value (n := .scalar _ _) trivial, mem_under]

theorem braces_tell (setting : Setting) (x : Scalar) :
    Tells bracesSaid setting x ↔ setting.path = ["session", "max_sessions"] ∧ x = .integer 3 := by
  have extra : setting.path ≠ ["extra", "server"] := by
    cases setting <;> simp [Setting.path]
  simp [Tells, bracesSaid, told, bindings, held_table, bound,
    held_value (n := .scalar _ _) trivial, mem_under, extra]

theorem two_spellings_agree :
    ∃ s s', Accepted headers headersSaid s ∧ Accepted braces bracesSaid s' ∧ s = s' ∧
      Setting.value .maxSessions s = some (.integer 3) ∧
      Setting.value .logLevel s = Setting.value .logLevel {} := by
  obtain ⟨hvalues, hsame, -⟩ := settings_overlay_defaults
  refine ⟨fewSessions, fewSessions, headers_accepted, braces_accepted, ?_, ?_, ?_⟩
  · refine hsame _ _ _ _ _ _ headers_accepted braces_accepted fun setting x => ?_
    rw [headers_tell, braces_tell]
  · exact (hvalues _ _ _ headers_accepted .maxSessions).1 _ ((headers_tell _ _).mpr ⟨rfl, rfl⟩)
  · refine (hvalues _ _ _ headers_accepted .logLevel).2 fun x htells => ?_
    simp [headers_tell, Setting.path] at htells

end PodConsole.Proofs.SettingsOverlay
