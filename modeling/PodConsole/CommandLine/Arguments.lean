namespace PodConsole.CommandLine

inductive Command where
  | serve (listen : Option String) (json : Bool)
  | showConfig
  | initConfig (force : Bool)
  deriving DecidableEq, Repr

structure Invocation where
  config : Option String
  verbose : Bool
  command : Command
  deriving DecidableEq, Repr

inductive Reading where
  | invocation (i : Invocation)
  | version
  | help
  | misuse
  deriving DecidableEq, Repr

/-- The commands that an argument may belong to. -/
inductive Level where
  | top
  | serve
  | config
  | showConfig
  | initConfig
  deriving DecidableEq, Repr

inductive Opt where
  | config
  | verbose
  | help
  | version
  | listen
  | json
  | force
  deriving DecidableEq, Repr

def Opt.takesValue : Opt → Bool
  | .config | .listen => true
  | _ => false

namespace Level

def long? (l : Level) (name : String) : Option Opt :=
  match l, name with
  | _, "config" => some .config
  | _, "verbose" => some .verbose
  | _, "help" => some .help
  | .top, "version" => some .version
  | .serve, "listen" => some .listen
  | .serve, "json" => some .json
  | .initConfig, "force" => some .force
  | _, _ => none

def short? (l : Level) (c : Char) : Option Opt :=
  match l, c with
  | _, 'c' => some .config
  | _, 'v' => some .verbose
  | _, 'h' => some .help
  | .top, 'V' => some .version
  | .serve, 'l' => some .listen
  | .initConfig, 'f' => some .force
  | _, _ => none

def below? (l : Level) (name : String) : Option Level :=
  match l, name with
  | .top, "serve" => some .serve
  | .top, "config" => some .config
  | .config, "show" => some .showConfig
  | .config, "init" => some .initConfig
  | _, _ => none

def hasCommands : Level → Bool
  | .top | .config => true
  | .serve | .showConfig | .initConfig => false

end Level

/-- What was given so far: at the level being read, and above it. -/
structure Given where
  options : List (Opt × String) := []
  above : List (Opt × String) := []

namespace Given

/-- The deepest level that has an option decides. -/
def value? (g : Given) (o : Opt) : Option String :=
  ((g.options ++ g.above).find? fun e => e.1 = o).map (·.2)

def has (g : Given) (o : Opt) : Bool :=
  (g.value? o).isSome

def descend (g : Given) : Given where
  above := g.options ++ g.above

def command? (g : Given) : Level → Option Command
  | .top | .config => none
  | .serve => some (.serve (g.value? .listen) (g.has .json))
  | .showConfig => some .showConfig
  | .initConfig => some (.initConfig (g.has .force))

def finish (g : Given) (l : Level) : Reading :=
  match g.command? l with
  | some command => .invocation ⟨g.value? .config, g.has .verbose, command⟩
  | none => .misuse

/-- An option may be given once at each level, and the path of the settings must not be empty. -/
def add (g : Given) (o : Opt) (value : String) : Except Reading Given :=
  match o with
  | .help => .error .help
  | .version => .error .version
  | _ =>
    if g.options.any (fun e => e.1 = o) || (o = .config && value = "") then .error .misuse
    else .ok { g with options := (o, value) :: g.options }

end Given

/-- An argument that can be the value of the option before it. -/
def isValue (s : String) : Bool :=
  s = "-" || s.toList.head? ≠ some '-'

/-- Options of one letter, written together; the flag tells that the last one needs a value. -/
def readShort (l : Level) (g : Given) : List Char → Except Reading (Given × Option Opt)
  | [] => .ok (g, none)
  | c :: r =>
    match l.short? c with
    | none => .error .misuse
    | some o =>
      if o.takesValue then
        match r with
        | [] => .ok (g, some o)
        | '=' :: r | r => (g.add o (String.ofList r)).map fun g => (g, none)
      else do
        let g ← g.add o ""
        readShort l g r

/-- An option with a name; a value can stand after an equals sign. -/
def readLong (l : Level) (g : Given) (cs : List Char) : Except Reading (Given × Option Opt) :=
  let name := cs.takeWhile (· ≠ '=')
  match l.long? (String.ofList name), cs.drop name.length with
  | none, _ => .error .misuse
  | some o, [] => if o.takesValue then .ok (g, some o) else (g.add o "").map fun g => (g, none)
  | some o, _ :: value =>
    if o.takesValue then (g.add o (String.ofList value)).map fun g => (g, none)
    else .error .misuse

/-- Whether names lead from one command to the next. -/
def leads (l : Level) : List String → Bool
  | [] => true
  | name :: rest =>
    match l.below? name with
    | some l => leads l rest
    | none => false

def readArguments (l : Level) (g : Given) (pending : Option Opt) : List String → Reading
  | [] => if pending.isSome then .misuse else g.finish l
  | arg :: rest =>
    match pending with
    | some o =>
      if !isValue arg then .misuse
      else match g.add o arg with
        | .ok g => readArguments l g none rest
        | .error reading => reading
    | none =>
      match l.below? arg with
      | some l => readArguments l g.descend none rest
      | none =>
        if l.hasCommands && arg = "help" then if leads l rest then .help else .misuse
        else
          match arg.toList with
          | ['-', '-'] => if rest = [] then g.finish l else .misuse
          | '-' :: '-' :: cs =>
            match readLong l g cs with
            | .ok (g, pending) => readArguments l g pending rest
            | .error reading => reading
          | '-' :: c :: cs =>
            match readShort l g (c :: cs) with
            | .ok (g, pending) => readArguments l g pending rest
            | .error reading => reading
          | _ => .misuse

def read (args : List String) : Reading :=
  readArguments .top {} none args

end PodConsole.CommandLine
