import RemoteAgent.Log.Config

/-! Lines of a log: the time, the level in five places, the target, the place in the source, the
message and the fields, with colours or without. -/

namespace RemoteAgent.Log

structure Layout where
  timestamps : Bool
  showTarget : Bool
  showPlace : Bool
  colors : Bool

structure Stamp where
  time : String
  file : String
  line : String

namespace Layout

def escape (code : String) : String := "\x1b[" ++ code ++ "m"

def paint (l : Layout) (style text : String) : String :=
  if l.colors then escape style ++ text ++ escape "0" else text

def dim : String := "2"

def italic : String := "3"

def Level.color : Level → String
  | .trace => "35"
  | .debug => "34"
  | .info => "32"
  | .warn => "33"
  | .error => "31"

def Level.padded (level : Level) : String :=
  if level.name.length = 4 then " " ++ level.name else level.name

def field (l : Layout) (f : String × String) : String :=
  " " ++ l.paint italic f.1 ++ l.paint dim "=" ++ f.2

def line (l : Layout) (s : Stamp) (e : Event) : String :=
  (if l.timestamps then l.paint dim s.time ++ " " else "") ++
    l.paint (Level.color e.level) (Level.padded e.level) ++ " " ++
    (if l.showTarget then l.paint dim e.target ++ l.paint dim ":" ++ " " else "") ++
    (if l.showPlace then
      l.paint dim s.file ++ l.paint dim ":" ++ l.paint dim (s.line ++ ":") ++ " "
    else "") ++
    e.message ++ String.join (e.fields.map l.field) ++ "\n"

end Layout

def Config.consoleLayout (c : Config) : Layout :=
  ⟨c.timestamps, c.showTarget, c.fileInfo, c.ansiColors⟩

def Config.fileLayout (c : Config) : Layout := { c.consoleLayout with colors := false }

end RemoteAgent.Log
