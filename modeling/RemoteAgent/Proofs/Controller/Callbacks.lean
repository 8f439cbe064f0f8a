import RemoteAgent.Proofs.Agent.Trampolines
import RemoteAgent.Proofs.Bridge.RoundTrip
import RemoteAgent.Proofs.Controller.Answers
import RemoteAgent.Proofs.Controller.Visit

/-! Callbacks: native code that calls functions of a controller through trampolines. While the data
session stays up, whatever is created, freed, registered and unregistered, calling the trampoline of a
name is calling the function that is registered for it. -/

namespace RemoteAgent.Controller

open RemoteAgent.Action Channel Native

/-- A controller's functions at an agent, with a server that goes on from call to call. -/
structure Scene where
  visit : Visit
  server : Server

inductive Deed where
  -- a trampoline is asked for; if it has to be made it gets the address, or there is no room for it
  | create (fresh : Nat) (room : Bool) (name : String) (arity : Nat)
  | free (name : String)
  | register (name : String) (f : Function)
  | unregister (name : String)
  | call (name : String) (args : List UInt64)

/-- What should be known by name: how many arguments the trampolines take, and the functions. -/
structure Directory where
  arities : String → Option Nat
  functions : String → Option Function

namespace Directory

def assign {β : Type} (name : String) (b : Option β) (table : String → Option β) :
    String → Option β := fun n => if n = name then b else table n

/-- A trampoline that is there stays as it is, none has too many arguments, and for each one there was
room. -/
def after (d : Directory) : Deed → Directory
  | .create _ room name arity =>
    if d.arities name = none ∧ arity ≤ maxArity ∧ room then
      { d with arities := assign name (some arity) d.arities }
    else d
  | .free name => { d with arities := assign name none d.arities }
  | .register name f => { d with functions := assign name (some f) d.functions }
  | .unregister name => { d with functions := assign name none d.functions }
  | .call _ _ => d

def value (d : Directory) (name : String) (args : List UInt64) : UInt64 :=
  (((d.functions name).bind fun f => f args).map Response.value).getD 0

def ofVisit (v : Visit) : Directory :=
  ⟨fun name => (v.context.functions.find? name).map (·.arity), fun name => v.functions.lookup name⟩

section OfVisit

variable {v v' : Visit} {name : String}

theorem ofVisit_create {fresh arity : Nat} {room : Bool} (hfunctions : v'.functions = v.functions)
    (h : v'.context.functions = (Registry.createAt fresh name arity v.context.functions).state)
    (hroom : v.context.functions.hasRoom v.context.functions.tried = room) :
    ofVisit v' = (ofVisit v).after (.create fresh room name arity) := by
  subst hroom
  have hnone : (ofVisit v).arities name = none ↔ v.context.functions.find? name = none :=
    Option.map_eq_none_iff
  have hkept : (ofVisit v').functions = (ofVisit v).functions := by
    unfold ofVisit
    rw [hfunctions]
  rw [after]
  by_cases hnew : v.context.functions.find? name = none ∧ arity ≤ maxArity ∧
      v.context.functions.hasRoom v.context.functions.tried = true
  · rw [if_pos ⟨hnone.2 hnew.1, hnew.2⟩]
    refine congrArg₂ mk (funext fun other => ?_) hkept
    rw [h, Registry.find?_createAt, assign]
    by_cases hother : other = name
    · rw [if_pos ⟨hother, hnew⟩, if_pos hother]
      rfl
    · rw [if_neg fun hall => hother hall.1, if_neg hother]
      rfl
  · rw [if_neg fun hall => hnew ⟨hnone.1 hall.1, hall.2⟩]
    refine congrArg₂ mk (funext fun other => ?_) hkept
    rw [h, Registry.find?_createAt, if_neg fun hall => hnew hall.2]

theorem ofVisit_free (hfunctions : v'.functions = v.functions)
    (h : v'.context.functions = (Registry.free name v.context.functions).state) :
    ofVisit v' = (ofVisit v).after (.free name) := by
  unfold ofVisit
  rw [h, hfunctions]
  refine congrArg₂ mk (funext fun other => ?_) rfl
  rw [Registry.find?_free, assign]
  split
  · rfl
  · rfl

theorem ofVisit_register {f : Function} (hcontext : v'.context.functions = v.context.functions)
    (h : v'.functions = v.functions.register name f) :
    ofVisit v' = (ofVisit v).after (.register name f) := by
  unfold ofVisit
  rw [h, hcontext]
  refine congrArg₂ mk rfl (funext fun other => ?_)
  rw [Functions.register, lookup_cons_ite, lookup_filter_ne, assign]
  split
  · rfl
  · rfl

theorem ofVisit_unregister (hcontext : v'.context.functions = v.context.functions)
    (h : v'.functions = v.functions.unregister name) :
    ofVisit v' = (ofVisit v).after (.unregister name) := by
  unfold ofVisit
  rw [h, hcontext]
  exact congrArg₂ mk rfl (funext fun other => lookup_filter_ne name other v.functions)

end OfVisit

end Directory

namespace Visit

def sent (v : Visit) : List UInt8 :=
  ((v.session.bind fun i => v.context.bridge.sessions[i]?).map (·.link.stream.sent)).getD []

structure Carries (v : Visit) (name : String) (args : List UInt64) : Prop where
  asked : (Message.remoteCall name args).FitsIn (limit v.context)
  answered : (Server.answer v.functions name args).1.message.FitsIn (limit v.context)

structure Served (v : Visit) (i : Nat) (s : Bridge.Session) : Prop where
  session : v.session = some i
  active : v.context.bridge.active = some i
  here : v.context.bridge.sessions[i]? = some s
  held : s.held = true
  unfailed : s.failed = false
  idle : s.link.Idle
  answers : s.reply = serverReply v.functions
  limited : s.link.maxMessageSize = v.context.config.channel.maxMessageSize

namespace Served

variable {v : Visit} {i : Nat} {s : Bridge.Session}

theorem current (h : v.Served i s) : v.context.bridge.current = some i := by
  have hheld : ((v.context.bridge.sessions[i]?.map (·.held)).getD false) = true := by
    rw [h.here]
    exact h.held
  rw [Bridge.current, h.active]
  exact Option.filter_eq_some_iff.2 ⟨rfl, hheld⟩

theorem isFailed (h : v.Served i s) : v.context.bridge.isFailed i = false := by
  rw [Bridge.isFailed, h.here]
  exact h.unfailed

theorem sent_eq (h : v.Served i s) : v.sent = s.link.stream.sent := by
  rw [Visit.sent, h.session, Option.bind_some, h.here]
  rfl

theorem inFunctions {α : Type} (h : v.Served i s) (act : Action Registry α) :
    (inContext (Context.inFunctions act) v).state.Served i s :=
  ⟨h.session, h.active, h.here, h.held, h.unfailed, h.idle, h.answers, h.limited⟩

theorem lt_length (h : v.Served i s) : i < v.context.bridge.sessions.length :=
  (List.getElem?_eq_some_iff.1 h.here).1

theorem setFunctions (h : v.Served i s) (f : Functions → Functions) :
    ∃ v' s', (Visit.setFunctions f v).state = v' ∧ v'.Served i s' ∧
      v'.context.functions = v.context.functions ∧ v'.functions = f v.functions := by
  let b : Bridge := { v.context.bridge with
    sessions := v.context.bridge.sessions.modify i fun s =>
      { s with reply := serverReply (f v.functions) } }
  have hstate : (Visit.setFunctions f v).state =
      { v with functions := f v.functions, context := { v.context with bridge := b } } := by
    rw [Visit.setFunctions, bind_of_ok (modify_apply _ v), bind_of_ok (get_apply _)]
    dsimp only
    rw [h.session]
    rfl
  have hhere : b.sessions[i]? = some { s with reply := serverReply (f v.functions) } := by
    rw [List.getElem?_modify_eq, h.here]
    rfl
  exact ⟨_, _, hstate, ⟨h.session, h.active, hhere, h.held, h.unfailed, h.idle, rfl, h.limited⟩, rfl, rfl⟩

theorem jump {name : String} {t : Trampoline Registry.RemoteFunction} {args : List UInt64}
    (h : v.Served i s) (hproper : v.context.functions.Proper)
    (ht : v.context.functions.find? name = some t) (hargs : t.arity ≤ args.length)
    (hfits : v.Carries name (args.take t.arity)) :
    ∃ v' s', inContext (Native.jump t.address args) v =
        ⟨.ok (Server.answer v.functions name (args.take t.arity)).1.value, v',
          (inContext (Native.jump t.address args) v).events⟩ ∧
      v'.Served i s' ∧ v'.context.functions = v.context.functions ∧ v'.functions = v.functions ∧
      v'.sent = v.sent ++ framed (.remoteCall name (args.take t.arity)) := by
  obtain ⟨hcall, hanswer⟩ := hfits
  have hreply : s.reply (framed (.remoteCall name (args.take t.arity))) =
      [.bytes (framed (Server.answer v.functions name (args.take t.arity)).1.message)] := by
    rw [h.answers, serverReply, Server.reply_of_call (hcall.mono (Nat.min_le_right _ _))
      (hanswer.mono (Nat.min_le_right _ _))]
  have hlimit : limit v.context ≤ s.link.maxMessageSize := h.limited ▸ Nat.min_le_left _ _
  obtain ⟨link, hresult, hstate, hsent, hsize, hidle⟩ := Bridge.forward_of_idle h.current h.here
    h.idle (hcall.mono hlimit) hreply (hanswer.mono hlimit) (hanswer.mono (limit_le_header _))
  have hhere : (v.context.bridge.sessions.set i { s with link })[i]? = some { s with link } :=
    List.getElem?_set_self h.lt_length
  have hserved : Visit.Served { v with context := { v.context with
      bridge := (Bridge.forward name (args.take t.arity) v.context.bridge).state } } i
      { s with link } := by
    rw [hstate]
    exact ⟨h.session, h.active, hhere, h.held, h.unfailed, hidle, h.answers, hsize.trans h.limited⟩
  refine ⟨_, _, ?_, hserved, rfl, rfl, ?_⟩
  · rw [inContext, Action.on, Context.jump_of_find? hproper ht hargs, Context.inBridge, Action.on,
      hresult]
  · rw [hserved.sent_eq, h.sent_eq]
    exact hsent

end Served

end Visit

namespace Scene

def change (f : Functions → Functions) (w : Scene) : Scene :=
  { visit := (Visit.setFunctions f w.visit).state, server := (Server.setFunctions f w.server).state }

def step (w : Scene) : Deed → Scene
  | .create fresh _ name arity =>
    let o := Visit.inContext (Context.inFunctions (Registry.createAt fresh name arity)) w.visit
    { w with visit := o.state }
  | .free name =>
    let o := Visit.inContext (Context.inFunctions (Registry.free name)) w.visit
    { w with visit := o.state }
  | .register name f => w.change (Functions.register name f)
  | .unregister name => w.change (Functions.unregister name)
  | .call name args =>
    match w.visit.context.functions.addressOf? name with
    | none => w
    | some address =>
      let visit := (Visit.inContext (jump address args) w.visit).state
      let news := visit.sent.drop w.visit.sent.length
      { visit, server := (Server.exchange [.bytes news] w.server).state }

def opened (v : Visit) : Scene :=
  { visit := (Visit.serve v).state, server := { link := { stream := { incoming := [] } } } }

def Allows (w : Scene) : Deed → Prop
  | .create fresh room _ _ =>
    let r := w.visit.context.functions
    r.Unused fresh ∧ r.hasRoom r.tried = room
  | .call name args => ∃ t, w.visit.context.functions.find? name = some t ∧
      t.arity ≤ args.length ∧ w.visit.Carries name (args.take t.arity)
  | _ => True

inductive Runs (w₀ : Scene) : List Deed → Scene → Prop
  | start : Runs w₀ [] w₀
  | step {ds : List Deed} {w : Scene} {d : Deed} (h : Runs w₀ ds w) (hd : w.Allows d) :
    Runs w₀ (ds ++ [d]) (w.step d)

structure Attached (w : Scene) (i : Nat) : Prop where
  proper : w.visit.context.functions.Proper
  served : ∃ s, w.visit.Served i s
  functions : w.server.functions = w.visit.functions
  serves : w.server.ended = false
  idle : w.server.link.Idle
  limited : w.server.link.maxMessageSize = defaultMaxMessageSize

theorem attached_opened {v : Visit} (h : v.context.functions.Proper) :
    (opened v).Attached v.context.bridge.sessions.length := by
  have hhere : ∀ s : Bridge.Session, (v.context.bridge.sessions ++ [s])[
      v.context.bridge.sessions.length]? = some s := fun s => List.getElem?_concat_length
  exact ⟨h, ⟨_, rfl, rfl, hhere _, rfl, rfl, idle_fresh _, rfl, rfl⟩, rfl, rfl, idle_fresh _, rfl⟩

section Step

variable {w w₀ : Scene} {i : Nat} {name : String} {args : List UInt64} {ds : List Deed} {d : Deed}
  {t : Trampoline Registry.RemoteFunction}

theorem Attached.change (h : w.Attached i) (f : Functions → Functions) :
    (w.change f).Attached i ∧
      (w.change f).visit.context.functions = w.visit.context.functions ∧
      (w.change f).visit.functions = f w.visit.functions := by
  obtain ⟨s, hs⟩ := h.served
  obtain ⟨v, s', hv, hs', hcontext, hfunctions⟩ := hs.setFunctions f
  rw [Scene.change, hv]
  refine ⟨⟨hcontext.symm ▸ h.proper, ⟨s', hs'⟩, ?_, h.serves, h.idle, h.limited⟩, hcontext, hfunctions⟩
  exact (congrArg f h.functions).trans hfunctions.symm

theorem Attached.call (h : w.Attached i) (ht : w.visit.context.functions.find? name = some t)
    (hargs : t.arity ≤ args.length) (hfits : w.visit.Carries name (args.take t.arity)) :
    ∃ v news, Visit.inContext (jump t.address args) w.visit =
        ⟨.ok (Server.answer w.visit.functions name (args.take t.arity)).1.value, v,
          (Visit.inContext (jump t.address args) w.visit).events⟩ ∧
      v.sent = w.visit.sent ++ news ∧
      (Server.exchange [.bytes news] w.server).result =
        .ok (framed (Server.answer w.visit.functions name (args.take t.arity)).1.message) ∧
      (w.step (.call name args)).Attached i ∧
      (w.step (.call name args)).visit.context.functions = w.visit.context.functions ∧
      (w.step (.call name args)).visit.functions = w.visit.functions := by
  obtain ⟨s, hs⟩ := h.served
  obtain ⟨v, s', hjump, hs', hcontext, hfunctions, hsent⟩ := hs.jump h.proper ht hargs hfits
  have hcall : (Message.remoteCall name (args.take t.arity)).FitsIn w.server.link.maxMessageSize :=
    h.limited ▸ hfits.asked.mono (Nat.min_le_right _ _)
  have hanswer : (Server.answer w.server.functions name (args.take t.arity)).1.message.FitsIn
      w.server.link.maxMessageSize := by
    rw [h.limited, h.functions]
    exact hfits.answered.mono (Nat.min_le_right _ _)
  obtain ⟨hresult, link, hstate, hidle, hsize⟩ := Server.exchange_of_call h.idle h.serves hcall
    (hfits.asked.mono (Visit.limit_le_header _)) hanswer
  have hstep : w.step (.call name args) = ⟨v, { w.server with link }⟩ := by
    have haddress : w.visit.context.functions.addressOf? name = some t.address := by
      rw [Registry.addressOf?, ht]
      rfl
    rw [Scene.step, haddress]
    dsimp only
    rw [hjump]
    dsimp only
    rw [hsent, List.drop_left, hstate]
  rw [h.functions] at hresult
  refine ⟨v, _, hjump, hsent, hresult, ?_, ?_, ?_⟩
  · rw [hstep]
    exact ⟨hcontext.symm ▸ h.proper, ⟨s', hs'⟩, h.functions.trans hfunctions.symm, h.serves, hidle,
      hsize.trans h.limited⟩
  · rw [hstep]
    exact hcontext
  · rw [hstep]
    exact hfunctions

theorem Attached.step (h : w.Attached i) (hd : w.Allows d) :
    (w.step d).Attached i ∧
      Directory.ofVisit (w.step d).visit = (Directory.ofVisit w.visit).after d := by
  obtain ⟨s, hs⟩ := h.served
  cases d with
  | create fresh room name arity =>
    refine ⟨⟨h.proper.createAt hd.1 name arity, ⟨s, hs.inFunctions _⟩, h.functions, h.serves, h.idle,
      h.limited⟩, ?_⟩
    exact Directory.ofVisit_create rfl rfl hd.2
  | free name =>
    refine ⟨⟨h.proper.free name, ⟨s, hs.inFunctions _⟩, h.functions, h.serves, h.idle, h.limited⟩, ?_⟩
    exact Directory.ofVisit_free rfl rfl
  | register name f =>
    obtain ⟨hattached, hcontext, hfunctions⟩ := h.change (Functions.register name f)
    exact ⟨hattached, Directory.ofVisit_register hcontext hfunctions⟩
  | unregister name =>
    obtain ⟨hattached, hcontext, hfunctions⟩ := h.change (Functions.unregister name)
    exact ⟨hattached, Directory.ofVisit_unregister hcontext hfunctions⟩
  | call name args =>
    obtain ⟨t, ht, hargs, hfits⟩ := hd
    obtain ⟨-, -, -, -, -, hattached, hcontext, hfunctions⟩ := h.call ht hargs hfits
    refine ⟨hattached, ?_⟩
    unfold Directory.ofVisit
    rw [hcontext, hfunctions]
    rfl

theorem Runs.attached (hrun : Runs w₀ ds w) (h₀ : w₀.Attached i) :
    w.Attached i ∧
      Directory.ofVisit w.visit = ds.foldl Directory.after (Directory.ofVisit w₀.visit) := by
  induction hrun with
  | start => exact ⟨h₀, rfl⟩
  | step _ hd ih =>
    obtain ⟨hattached, hknown⟩ := ih
    obtain ⟨hattached', hknown'⟩ := hattached.step hd
    rw [List.foldl_append, ← hknown]
    exact ⟨hattached', hknown'⟩

end Step

/-- Whatever was done before, a call of a name's trampoline returns what the function that is
registered for the name gives for as many arguments as the trampoline takes. The session stays
attached, it has not failed, and the server is the one that has answered all calls so far. -/
theorem jump_eq_value {v : Visit} {w : Scene} {ds : List Deed} {name : String} {k : Nat}
    {args : List UInt64} (hproper : v.context.functions.Proper) (hrun : Runs (opened v) ds w)
    (hlive : (ds.foldl Directory.after (Directory.ofVisit (opened v).visit)).arities name = some k)
    (hargs : k ≤ args.length) (hfits : w.visit.Carries name (args.take k)) :
    let value := (ds.foldl Directory.after (Directory.ofVisit (opened v).visit)).value name
      (args.take k)
    ∃ address v' es flags, w.visit.context.functions.addressOf? name = some address ∧
      Visit.inContext (jump address args) w.visit = ⟨.ok value, v', es⟩ ∧
      v'.context.bridge.current = some v.context.bridge.sessions.length ∧
      v'.context.bridge.isFailed v.context.bridge.sessions.length = false ∧
      (Server.exchange [.bytes (v'.sent.drop w.visit.sent.length)] w.server).result =
        .ok (framed (.remoteCallResponse value flags)) := by
  intro value
  obtain ⟨hattached, hknown⟩ := hrun.attached (attached_opened hproper)
  rw [← hknown] at hlive
  obtain ⟨t, ht, rfl⟩ := Option.map_eq_some_iff.1 hlive
  have haddress : w.visit.context.functions.addressOf? name = some t.address := by
    rw [Registry.addressOf?, ht]
    rfl
  obtain ⟨v', news, hjump, hsent, hexchange, hattached', -, -⟩ := hattached.call ht hargs hfits
  obtain ⟨s, hs⟩ := hattached'.served
  have hvisit : (w.step (.call name args)).visit = v' := by
    rw [step, haddress]
    exact congrArg Outcome.state hjump
  rw [hvisit] at hs
  have hvalue : (Server.answer w.visit.functions name (args.take t.arity)).1.value = value := by
    show _ = Directory.value (ds.foldl _ _) _ _
    rw [← hknown]
    exact Server.value_answer
  have hmessage : ∃ flags, (Server.answer w.visit.functions name (args.take t.arity)).1.message =
      .remoteCallResponse value flags := by
    rw [Response.message, hvalue]
    exact ⟨_, rfl⟩
  obtain ⟨flags, hmessage⟩ := hmessage
  rw [hvalue] at hjump
  refine ⟨_, v', _, flags, haddress, hjump, hs.current, hs.isFailed, ?_⟩
  rw [hsent, List.drop_left, hexchange, hmessage]

theorem jump_eq_value_sum :
    let v : Visit := { context := { config := .standard "/tmp" } }
    let w := ((opened v).step (.create 0x2b0000000000 true "sum" 2)).step
      (.register "sum" (Function.ofValue fun args => args.foldl (· + ·) 0))
    ∃ v' es, Visit.inContext (jump 0x2b0000000000 [3, 4, 5]) w.visit = ⟨.ok 7, v', es⟩ ∧
      v'.context.bridge.isAttached = true := by
  intro v w
  have hcreate : (opened v).Allows (.create 0x2b0000000000 true "sum" 2) := ⟨rfl, rfl⟩
  have hrun : Runs (opened v) [.create 0x2b0000000000 true "sum" 2,
      .register "sum" (Function.ofValue fun args => args.foldl (· + ·) 0)] w :=
    .step (.step .start hcreate) trivial
  have hfits : w.visit.Carries "sum" [3, 4] :=
    ⟨⟨_, rfl, by decide⟩, ⟨_, rfl, by decide⟩⟩
  obtain ⟨address, v', es, flags, haddress, hjump, hcurrent, -⟩ :=
    @jump_eq_value v w _ "sum" 2 [3, 4, 5] Registry.proper_empty hrun rfl (by decide) hfits
  cases haddress
  refine ⟨v', es, hjump, ?_⟩
  rw [Bridge.isAttached, hcurrent]
  rfl

end Scene

end RemoteAgent.Controller
