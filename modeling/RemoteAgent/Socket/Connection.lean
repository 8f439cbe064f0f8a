import RemoteAgent.Error

/-! Connections: two ends, each with the bytes that wait to be read there. Either side can shut both
directions or close its end; what waits can still be read. -/

namespace RemoteAgent.Socket

inductive Side where
  | client
  | server
  deriving DecidableEq, Repr

def Side.other : Side → Side
  | client => server
  | server => client

structure End where
  waiting : List UInt8 := []
  handles : Nat := 1
  reset : Bool := false
  deriving DecidableEq, Repr

structure Connection where
  client : End := {}
  server : End := {}
  shut : Bool := false
  deriving DecidableEq, Repr

namespace Connection

def atSide (c : Connection) : Side → End
  | .client => c.client
  | .server => c.server

def adjust (side : Side) (f : End → End) (c : Connection) : Connection :=
  match side with
  | .client => { c with client := f c.client }
  | .server => { c with server := f c.server }

/-- Reads at most `max` bytes at once; no bytes at the end of the stream. -/
def read (side : Side) (max : Nat) (c : Connection) : Except OsError (List UInt8) × Connection :=
  let e := c.atSide side
  if e.waiting ≠ [] then
    (.ok (e.waiting.take max), c.adjust side fun e => { e with waiting := e.waiting.drop max })
  else if e.reset then (.error .connectionReset, c.adjust side fun e => { e with reset := false })
  else if c.shut then (.ok [], c)
  else (.error .wouldBlock, c)

def probe (side : Side) (c : Connection) : Bool × Connection :=
  let e := c.atSide side
  if e.waiting ≠ [] then (true, c)
  else if e.reset then (false, c.adjust side fun e => { e with reset := false })
  else (!c.shut, c)

def write (side : Side) (data : List UInt8) (c : Connection) : Except OsError Unit × Connection :=
  if data = [] then (.ok (), c)
  else if c.shut then (.error .brokenPipe, c)
  else (.ok (), c.adjust side.other fun e => { e with waiting := e.waiting ++ data })

def shutdown (c : Connection) : Connection := { c with shut := true }

def abandon (side : Side) (lost : Bool) (c : Connection) : Connection :=
  let gone := c.adjust side fun _ => { handles := 0 }
  (gone.adjust side.other fun e => { e with reset := e.reset || lost }).shutdown

def release (side : Side) (c : Connection) : Connection :=
  let e := c.atSide side
  if e.handles ≤ 1 then c.abandon side (e.waiting ≠ [])
  else c.adjust side fun e => { e with handles := e.handles - 1 }

def share (side : Side) (c : Connection) : Connection :=
  c.adjust side fun e => { e with handles := e.handles + 1 }

end Connection

end RemoteAgent.Socket
