import RemoteAgent.Log.Event
import RemoteAgent.Toml.Value

/-! What is logged and where to. -/

namespace RemoteAgent.Log

structure Config where
  consoleEnabled : Bool := true
  fileEnabled : Bool := false
  filePath : String := "hands-agent.log"
  timestamps : Bool := true
  fileInfo : Bool := false
  showTarget : Bool := true
  ansiColors : Bool := true
  level : String := "info"
  deriving DecidableEq, Repr

namespace Config

def debug : Config := { level := "debug", fileInfo := true }

def agent (path : String) : Config :=
  { consoleEnabled := false, fileEnabled := true, filePath := path, ansiColors := false }

def withFile (c : Config) (path : String) : Config := { c with fileEnabled := true, filePath := path }

def withLevel (c : Config) (level : String) : Config := { c with level }

def lower (s : String) : String :=
  String.ofList (s.toList.map fun c =>
    if 'A' ≤ c ∧ c ≤ 'Z' then Char.ofNat (c.toNat + 32) else c)

/-- The level that a name stands for, in small or capital letters; any other text means `info`. -/
def getLevel (c : Config) : Level :=
  match lower c.level with
  | "trace" => .trace
  | "debug" => .debug
  | "info" => .info
  | "warn" | "warning" => .warn
  | "error" => .error
  | _ => .info

def ofValue? (v : Toml.Value) : Option Config := do
  return { consoleEnabled := ← v.setting "console_enabled" 0 Toml.Value.boolean? true
           fileEnabled := ← v.setting "file_enabled" 1 Toml.Value.boolean? false
           filePath := ← v.setting "file_path" 2 Toml.Value.text? "hands-agent.log"
           timestamps := ← v.setting "timestamps" 3 Toml.Value.boolean? true
           fileInfo := ← v.setting "file_info" 4 Toml.Value.boolean? false
           showTarget := ← v.setting "show_target" 5 Toml.Value.boolean? true
           ansiColors := ← v.setting "ansi_colors" 6 Toml.Value.boolean? true
           level := ← v.setting "level" 7 Toml.Value.text? "info" }

def settings (c : Config) : List (String × Toml.Value) :=
  [("console_enabled", .boolean c.consoleEnabled), ("file_enabled", .boolean c.fileEnabled),
    ("file_path", .text c.filePath), ("timestamps", .boolean c.timestamps),
    ("file_info", .boolean c.fileInfo), ("show_target", .boolean c.showTarget),
    ("ansi_colors", .boolean c.ansiColors), ("level", .text c.level)]

theorem ofValue?_settings (c : Config) : ofValue? (.table c.settings) = some c := by
  simp [ofValue?, settings, Toml.Value.setting, List.lookup_cons, Toml.Value.boolean?, Toml.Value.text?]

def ofValueExactly? (v : Toml.Value) : Option Config :=
  match v with
  | .list items => if items.length ≤ 8 then ofValue? v else none
  | v => ofValue? v

end Config

def agentFileName (pid : Nat) : String := s!"hands-agent-{pid}.log"

end RemoteAgent.Log
