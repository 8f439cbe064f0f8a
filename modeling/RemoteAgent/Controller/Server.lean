import RemoteAgent.Channel.Frame

/-! Function servers: they answer the calls that arrive on an agent's data channel, one response for
each call, with the functions that a controller has registered. -/

namespace RemoteAgent.Controller

open Channel Log

structure Response where
  value : UInt64 := 0
  printStack : Bool := false
  deriving DecidableEq, Repr

def Response.message (r : Response) : Message :=
  .remoteCallResponse r.value (if r.printStack then Message.printStack else 0)

/-- A function of a controller; it may panic, which gives nothing. -/
abbrev Function : Type := List UInt64 → Option Response

namespace Function

def ofValue (f : List UInt64 → UInt64) : Function := fun args => some { value := f args }

def length (args : List UInt64) : UInt64 := UInt64.ofNat args.length

def ofName? : String → Option Function
  | "sum" => some (ofValue fun args => args.foldl (· + ·) 0)
  | "product" => some (ofValue fun args => args.foldl (· * ·) 1)
  | "first" => some fun args => args.head?.map fun a => { value := a }
  | "len" => some (ofValue length)
  | "trace" => some fun args => some { value := length args, printStack := true }
  | "panic" => some fun _ => none
  | _ => none

end Function

abbrev Functions : Type := List (String × Function)

namespace Functions

def register (name : String) (f : Function) (fs : Functions) : Functions :=
  (name, f) :: fs.filter (·.1 ≠ name)

def unregister (name : String) (fs : Functions) : Functions := fs.filter (·.1 ≠ name)

def has (name : String) (fs : Functions) : Bool := (fs.lookup name).isSome

end Functions

structure Server where
  functions : Functions := []
  link : Link
  ended : Bool := false

namespace Server

def target : String := "hands_client::server"

def warn (message : String) (fields : List (String × String)) : Event :=
  { level := .warn, target, message, fields }

def inLink {α : Type} (act : Action Link α) : Action Server α :=
  act.on link fun l s => { s with link := l }

def setFunctions (f : Functions → Functions) : Action Server Unit :=
  .modify fun s => { s with functions := f s.functions }

def answer (functions : Functions) (name : String) (args : List UInt64) : Response × List Event :=
  match functions.lookup name with
  | none => ({}, [warn "No handler registered" [("function", name)]])
  | some f =>
    match f args with
    | some r => (r, [])
    | none => ({}, [warn "Handler panicked" [("function", name)]])

def respond (m : Message) : Action Server Unit := do
  match m with
  | .remoteCall name args =>
    let (r, events) := answer (← Action.get).functions name args
    .tell events
    match ← (inLink (send r.message)).attempt with
    | .ok () => pure ()
    | .error e =>
      .tell [warn "Failed to send call response" [("error", e.message)]]
      .fail e
  | other =>
    .tell [warn "Unexpected message on data channel" [("message_type", other.kind.name)]]

def step : Action Server Unit := do
  match ← (inLink receive).attempt with
  | .ok m => respond m
  | .error e =>
    match e with
    | .channelIo ⟨.unexpectedEof, _⟩ =>
      .tell [{ level := .debug, target, message := "Data channel closed" }]
    | e => .tell [warn "Data channel failed" [("error", e.message)]]
    .fail e

theorem keeps_respond (m : Message) :
    Action.Keeps (fun s : Server => s.link.stream.incoming) (respond m) := by
  unfold respond
  split
  · refine Action.keeps_get.bind fun s => ?_
    refine (Action.keeps_tell _).bind fun _ => ?_
    refine Action.Keeps.bind (Action.Keeps.attempt fun s => keeps_send _ s.link) fun r => ?_
    cases r with
    | ok u => exact Action.keeps_pure _
    | error e => exact (Action.keeps_tell _).bind fun _ => Action.keeps_fail _
  · exact Action.keeps_tell _

theorem weight_step {s t : Server} {es : List Event} (h : step s = ⟨.ok (), t, es⟩) :
    t.link.weight < s.link.weight := by
  have hs := spends_receive s.link
  unfold step at h
  cases hr : receive s.link with
  | mk r l es' =>
    have ha : (inLink receive).attempt s = ⟨.ok r, { s with link := l }, es'⟩ := by
      simp only [Action.attempt, inLink, Action.on, hr]
    rw [Action.bind_of_ok ha] at h
    cases r with
    | ok m =>
      have hk := keeps_respond m { s with link := l }
      have := hs m (by rw [hr])
      rw [hr] at this
      simp only [Outcome.mk.injEq] at h
      obtain ⟨_, rfl, _⟩ := h
      simp only [Link.weight] at this ⊢
      simp only [hk]
      omega
    | error e =>
      simp only [Outcome.mk.injEq] at h
      obtain ⟨h, _⟩ := h
      revert h
      split <;> exact fun h => by cases h

def serveWhile (ready : Link → Bool) (s : Server) : Outcome Server Unit :=
  if ready s.link then
    match h : step s with
    | ⟨.error e, t, es⟩ => ⟨.error e, t, es⟩
    | ⟨.ok (), t, es⟩ =>
      have := weight_step h
      let o := serveWhile ready t
      ⟨o.result, o.state, es ++ o.events⟩
  else ⟨.ok (), s, []⟩
  termination_by s.link.weight

def serve (s : Server) : Outcome Server Unit := serveWhile (fun _ => true) s

def hasFrame (l : Link) : Bool :=
  let bytes := l.stream.unread
  let size := Wire.leValue (bytes.take 4)
  4 ≤ bytes.length && (l.maxMessageSize < size || size ≤ bytes.length - 4)

def serveArrived : Action Server Unit := serveWhile hasFrame

def exchange (incoming : List Stream.Piece) : Action Server (List UInt8) := do
  let sent := (← Action.get).link.stream.sent.length
  inLink (.modify fun l => { l with stream := l.stream.feed incoming })
  if !(← Action.get).ended then
    if let .error _ ← Action.attempt serveArrived then .modify fun s => { s with ended := true }
  return (← Action.get).link.stream.sent.drop sent

def deafen : Action Server Unit :=
  inLink (.modify fun l => { l with stream := { l.stream with room := some 0 } })

def reply (functions : Functions) (bytes : List UInt8) : List UInt8 :=
  (serve { functions, link := { stream := .ofBytes bytes } }).state.link.stream.sent

end Server

end RemoteAgent.Controller
