import RemoteAgent.Controller.Call
import RemoteAgent.Controller.Server
import RemoteAgent.Service.Command

/-! Visits: a controller at an agent. It calls over the command channel, one request after another,
and its function server answers on the data channel. -/

namespace RemoteAgent.Controller

open Channel

/-- A command connection, seen from both ends. -/
structure Line where
  near : Link
  far : Link
  cut : Bool := false

structure Visit where
  context : Context
  line : Option Line := none
  session : Option Nat := none
  functions : Functions := []

namespace Visit

def inContext {α : Type} (act : Action Context α) : Action Visit α :=
  act.on context fun c v => { v with context := c }

def inBridge {α : Type} (act : Action Bridge α) : Action Visit α := inContext (Context.inBridge act)

def farEnd (context : Context) (incoming : List Stream.Piece) : Link :=
  { stream := { incoming }, maxMessageSize := context.config.channel.maxMessageSize }

def connect : Action Visit Unit := .modify fun v =>
  { v with line := some { near := { stream := { incoming := [] } }, far := farEnd v.context [] } }

def disconnect : Action Visit Unit := .modify fun v => { v with line := none }

def sentSince (before after : Link) : List UInt8 :=
  after.stream.sent.drop before.stream.sent.length

def Line.feedNear (bytes : List UInt8) (l : Link) : Link :=
  { l with stream := l.stream.feed [.bytes bytes] }

def attend (line : Line) (request : List UInt8) : Action Visit Line := do
  let v ← Action.get
  let far := Line.feedNear request line.far
  let o := Service.Command.Session.step { context := v.context, link := far }
  .set { v with context := o.state.context }
  return { near := Line.feedNear (sentSince far o.state.link) line.near
           far := o.state.link
           cut := match o.result with
             | .ok goesOn => !goesOn
             | .error _ => true }

def onNear {α : Type} (line : Line) (act : Action Link α) : Action Visit (Line × α) := do
  let o := act.run line.near
  let line := { line with near := o.state }
  .modify fun v => { v with line := some line }
  .tell o.events
  return (line, ← Action.ofExcept o.result)

/-- Makes a call: the request goes out, the agent handles it, the reply comes back. -/
def call {α : Type} (c : Call α) : Action Visit α := do
  match (← Action.get).line with
  | none => .fail .notConnected
  | some line =>
    if line.cut then .fail (.channelIo OsError.brokenPipe.toIoError)
    let (sent, ()) ← onNear line (send c.request)
    let answered ← attend sent (sentSince line.near sent.near)
    let (_, reply) ← onNear answered receive
    Action.ofExcept (c.read reply)

def raw (incoming : List Stream.Piece) : Action Visit (List UInt8) := do
  let v ← Action.get
  let o := Service.Command.Session.serve { context := v.context, link := farEnd v.context incoming }
  .set { v with context := o.state.context }
  return o.state.link.stream.sent

def serverReply (fs : Functions) (bytes : List UInt8) : List Stream.Piece :=
  [.bytes (Server.reply fs bytes)]

def serve : Action Visit Unit := do
  let v ← Action.get
  let i ← inBridge (Bridge.add { link := farEnd v.context [], reply := serverReply [] })
  inBridge (Bridge.attach i)
  .modify fun v => { v with session := some i, functions := [] }

def unserve : Action Visit Unit := do
  if let some i := (← Action.get).session then
    inBridge (Bridge.detachSession i)
    inBridge (Bridge.release i)
  .modify fun v => { v with session := none }

def setFunctions (f : Functions → Functions) : Action Visit Unit := do
  .modify fun v => { v with functions := f v.functions }
  let v ← Action.get
  if let some i := v.session then
    inBridge (Bridge.adjust i fun s => { s with reply := serverReply v.functions })

end Visit

end RemoteAgent.Controller
