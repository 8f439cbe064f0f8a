import RemoteAgent.Text.Decimal

/-! The command line of the host. -/

namespace RemoteAgent.Host

structure Options where
  config : Option String := none
  commandPrefix : Option String := none
  dataPrefix : Option String := none
  socketDir : Option String := none
  remoteCallTimeoutMs : Option Nat := none
  verbose : Bool := false
  deriving DecidableEq, Repr

inductive Request where
  | run (o : Options)
  | help
  | version
  | misuse
  deriving DecidableEq, Repr

inductive Setting where
  | config
  | commandPrefix
  | dataPrefix
  | socketDir
  | remoteCallTimeoutMs
  deriving DecidableEq, Repr

namespace Setting

def ofName? : String → Option Setting
  | "config" => some config
  | "command-prefix" => some commandPrefix
  | "data-prefix" => some dataPrefix
  | "socket-dir" => some socketDir
  | "remote-call-timeout-ms" => some remoteCallTimeoutMs
  | _ => none

def once {α : Type} (old : Option α) (value : α) : Option (Option α) :=
  if old.isNone then some (some value) else none

def path? (s : String) : Option String := if s = "" then none else some s

def apply (s : Setting) (value : String) (o : Options) : Option Options :=
  match s with
  | config => do return { o with config := ← once o.config (← path? value) }
  | commandPrefix => do return { o with commandPrefix := ← once o.commandPrefix value }
  | dataPrefix => do return { o with dataPrefix := ← once o.dataPrefix value }
  | socketDir => do return { o with socketDir := ← once o.socketDir (← path? value) }
  | remoteCallTimeoutMs => do
    let n ← (Text.decimal? value).filter (· < UInt64.size)
    return { o with remoteCallTimeoutMs := ← once o.remoteCallTimeoutMs n }

end Setting

inductive Part where
  | set (o : Options)
  | wants (s : Setting) (o : Options)
  | stop (r : Request)

def Part.ofOptions : Option Options → Part
  | some o => .set o
  | none => .stop .misuse

def beVerbose (o : Options) : Option Options :=
  if o.verbose then none else some { o with verbose := true }

/-- Letters after one hyphen. The value of an option may stand right behind its letter. -/
def readLetters (o : Options) : List Char → Part
  | [] => .set o
  | 'h' :: _ => .stop .help
  | 'V' :: _ => .stop .version
  | 'v' :: r =>
    match beVerbose o with
    | some o => readLetters o r
    | none => .stop .misuse
  | ['c'] => .wants .config o
  | 'c' :: '=' :: r => .ofOptions (Setting.config.apply (String.ofList r) o)
  | 'c' :: r => .ofOptions (Setting.config.apply (String.ofList r) o)
  | _ => .stop .misuse

def readName (o : Options) (name : String) (value : Option String) : Part :=
  match Setting.ofName? name, value with
  | some s, some v => .ofOptions (s.apply v o)
  | some s, none => .wants s o
  | none, some _ => .stop .misuse
  | none, none =>
    if name = "help" then .stop .help
    else if name = "version" then .stop .version
    else if name = "verbose" then .ofOptions (beVerbose o)
    else .stop .misuse

def readPart (o : Options) (arg : String) : Part :=
  match arg.toList with
  | '-' :: '-' :: r =>
    let (name, value) := r.span (· ≠ '=')
    readName o (String.ofList name) (if value = [] then none else some (String.ofList (value.drop 1)))
  | '-' :: c :: r => readLetters o (c :: r)
  | _ => .stop .misuse

def isOption (arg : String) : Bool :=
  match arg.toList with
  | '-' :: _ :: _ => true
  | _ => false

def readFrom (o : Options) : List String → Request
  | [] => .run o
  | ["--"] => .run o
  | "--" :: _ => .misuse
  | arg :: r =>
    match readPart o arg with
    | .set o => readFrom o r
    | .stop request => request
    | .wants s o =>
      match r with
      | [] => .misuse
      | value :: r =>
        if isOption value then .misuse
        else match s.apply value o with
          | some o => readFrom o r
          | none => .misuse

def Request.ofArguments (args : List String) : Request := readFrom {} args

def versionText : String := "hands-host 0.1.0"

def helpText : List String :=
  ["Host the remote-hands agent in this process",
    "",
    "Usage: hands-host [OPTIONS]",
    "",
    "Options:",
    "  -c, --config <CONFIG>",
    "          Agent config file (TOML)",
    "      --command-prefix <COMMAND_PREFIX>",
    "          Command channel prefix",
    "      --data-prefix <DATA_PREFIX>",
    "          Data channel prefix",
    "      --socket-dir <SOCKET_DIR>",
    "          Directory for the channel endpoints",
    "      --remote-call-timeout-ms <REMOTE_CALL_TIMEOUT_MS>",
    "          Bound on each remote call, in milliseconds",
    "  -v, --verbose",
    "          Verbose output",
    "  -h, --help",
    "          Print help",
    "  -V, --version",
    "          Print version"]

end RemoteAgent.Host
