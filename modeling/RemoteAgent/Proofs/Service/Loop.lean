import RemoteAgent.Proofs.Service.Gate

/-! The loop of a service, whatever arrives. A turn ends with the seat vacant again, the agent as the
session left it, and the service goes on unless it is to stop or its channel is closed. -/

namespace RemoteAgent.Service

open RemoteAgent.Action

abbrev Took : Type := Arrival → Stream → Context → Context → Prop

namespace Desk

structure At (c : Context) (good : Gate → Prop) (d : Desk) : Prop where
  context : d.context = c
  gate : good d.gate

variable {q : Prop} {n : Nat} {c : Context} {good good' : Gate → Prop}

end Desk

namespace Manner

inductive Turned (q : Prop) (took : Took) (d : Desk) (a : Arrival) : Outcome Desk Bool → Prop
  | stops {t : Desk} {es : List Log.Event} (hc : t.context = d.context)
    (hs : t.gate.stopping = true ∨ t.gate.state = .closed) (ht : t.gate.Sound q)
    (hv : t.gate.state.holdsPeer = false) : Turned q took d a ⟨.ok false, t, es⟩
  | failed {t : Desk} {es : List Log.Event} (ha : a.outcome = .failure) (hc : t.context = d.context)
    (ht : t.gate.Sound q) (hs : t.gate.state = .waitingToConnect) :
    Turned q took d a ⟨.ok true, t, es⟩
  | served {stream : Stream} {t : Desk} {es : List Log.Event} (ha : a.outcome = .connection stream)
    (htook : took a stream d.context t.context) (ht : t.gate.Gone q (d.gate.accepted + 1)) :
    Turned q took d a ⟨.ok true, t, es⟩

theorem Turned.tell {q : Prop} {took : Took} {d : Desk} {a : Arrival} {o : Outcome Desk Bool}
    (h : Turned q took d a o) (es : List Log.Event) :
    Turned q took d a ⟨o.result, o.state, es ++ o.events⟩ := by
  cases h with
  | stops hc hs ht hv => exact .stops hc hs ht hv
  | failed ha hc ht hs => exact .failed ha hc ht hs
  | served ha htook ht => exact .served ha htook ht

section Turn

variable {m : Manner} {took : Took} {q : Prop} {n : Nat} {d : Desk} {a : Arrival}

end Turn

section Run

variable {m : Manner} {took : Took} {q : Prop} {d d' : Desk} {r : List Arrival}

end Run

end Manner

end RemoteAgent.Service
