import RemoteAgent.Agent.Bridge
import RemoteAgent.Agent.Registry
import RemoteAgent.Config.Basic

/-! What the services of an agent share: configuration, memory, remote functions, bridge. -/

namespace RemoteAgent

open Native

structure Context where
  config : Config
  memory : Memory.Space := {}
  program : Native.Program := .empty
  functions : Registry := {}
  bridge : Bridge := {}

namespace Context

def inMemory {α : Type} (act : Action Memory.Space α) : Action Context α :=
  act.on memory fun m c => { c with memory := m }

def inFunctions {α : Type} (act : Action Registry α) : Action Context α :=
  act.on functions fun r c => { c with functions := r }

def inBridge {α : Type} (act : Action Bridge α) : Action Context α :=
  act.on bridge fun b c => { c with bridge := b }

/-- A call to a trampoline goes over the bridge, under the name that the trampoline was made for. -/
def enter (t : Trampoline Registry.RemoteFunction) (args : List UInt64) : Action Context UInt64 :=
  inBridge (Bridge.forward t.handler.name (received t.arity args))

instance : Machine Context where
  memory := memory
  setMemory m c := { c with memory := m }
  program := program
  trampoline? c address := (c.functions.at? address).map enter

end Context

end RemoteAgent
