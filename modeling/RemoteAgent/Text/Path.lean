/-! Paths: the names of files, with `/` between a directory and what is in it. -/

namespace RemoteAgent.Text.Path

def isAbsolute (path : String) : Bool := path.toList.head? = some '/'

def join (dir path : String) : String :=
  if isAbsolute path || dir = "" then path
  else if dir.toList.getLast? = some '/' then dir ++ path
  else dir ++ "/" ++ path

/-- The names between the slashes; `.` and nothing at all are no names. -/
def names (path : String) : List String :=
  (path.splitOn "/").filter fun n => n ≠ "" ∧ n ≠ "."

end RemoteAgent.Text.Path
