import RemoteAgent.Action

/-! Guarded scopes: a trap inside one is a failure of the scope and not the end of the process. The
handlers are in place exactly while a scope is open. -/

namespace RemoteAgent.Fault

class Scopes (σ : Type) where
  openScopes : σ → Nat
  setOpenScopes : Nat → σ → σ

variable {σ α : Type} [Scopes σ]

def note (message : String) : Log.Event :=
  { level := .debug, target := "hands_core::fault", message }

def enter : Action σ Unit := do
  let n := Scopes.openScopes (← Action.get : σ)
  if n = 0 then .tell [note "Fault handlers installed"]
  .modify (Scopes.setOpenScopes (n + 1))

/-- Closes a scope; the last one puts the handlers back that were there before. -/
def leave : Action σ Unit := do
  let n := Scopes.openScopes (← Action.get : σ) - 1
  .modify (Scopes.setOpenScopes n)
  if n = 0 then .tell [note "Fault handlers restored"]

def guarded (act : Action σ α) : Action σ α := do
  enter
  let result ← act.attempt
  leave
  Action.ofExcept result

end RemoteAgent.Fault
