import RemoteAgent.Config.Basic
import RemoteAgent.Socket.Network
import RemoteAgent.Toml.Value

/-! Where configurations come from: texts, files and the name of a file in the environment. -/

namespace RemoteAgent.Config

open Toml

def Channel.ofValue? (tempDir : String) (v : Value) : Option Channel := do
  let d : Channel := { socketDir := tempDir }
  return { commandPrefix := ← v.setting "command_prefix" 0 Value.text? d.commandPrefix
           dataPrefix := ← v.setting "data_prefix" 1 Value.text? d.dataPrefix
           socketDir := ← v.setting "socket_dir" 2 Value.text? d.socketDir
           maxMessageSize := ← v.setting "max_message_size" 3 Value.natural? d.maxMessageSize
           probeIntervalMs := ← v.setting "probe_interval_ms" 4 Value.natural? d.probeIntervalMs }

def Channel.settings (c : Channel) : List (String × Value) :=
  [("command_prefix", .text c.commandPrefix), ("data_prefix", .text c.dataPrefix),
    ("socket_dir", .text c.socketDir), ("max_message_size", .integer c.maxMessageSize),
    ("probe_interval_ms", .integer c.probeIntervalMs)]

theorem Channel.ofValue?_settings (tempDir : String) (c : Channel) :
    ofValue? tempDir (.table c.settings) = some c := by
  simp [ofValue?, settings, Value.setting, List.lookup_cons, Value.text?, Value.natural?]

def Bridge.ofValue? (v : Value) : Option Bridge := do
  return { remoteCallTimeoutMs :=
             ← v.setting "remote_call_timeout_ms" 0 (fun v => v.natural?.map some) none }

/-- Reads all groups of settings; what has another name is passed over. -/
def ofValue? (tempDir : String) (v : Value) : Option Config := do
  return { channel := ← v.setting "channel" 0 (Channel.ofValue? tempDir) { socketDir := tempDir }
           bridge := ← v.setting "bridge" 1 Bridge.ofValue? {}
           logging := ← v.setting "logging" 2 Log.Config.ofValue? {} }

def ofText (read? : String → Option Value) (tempDir text : String) : Except Error Config :=
  match (read? text).bind (ofValue? tempDir) with
  | some c => c.validate
  | none => .error (.config .malformed)

def textOf (content : Except IoError (List UInt8)) : Except IoError String := do
  match Text.Utf8.decode (← content) with
  | .ok text => .ok text
  | .error _ => .error ⟨.invalidData, "stream did not contain valid UTF-8"⟩

def load (read? : String → Option Value) (tempDir path : String)
    (content : Except IoError (List UInt8)) : Except Error Config :=
  match textOf content with
  | .ok text => ofText read? tempDir text
  | .error e => .error (.config (.unreadable path e))

def ofEnvironment (read? : String → Option Value) (tempDir : String) (path : Option String)
    (content : String → Except IoError (List UInt8)) : Except Error Config :=
  match path.filter (· ≠ "") with
  | some path => load read? tempDir path (content path)
  | none => .ok (standard tempDir)

end RemoteAgent.Config
