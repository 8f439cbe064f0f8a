import RemoteAgent.Fault.Body
import RemoteAgent.Proofs.Fault.Threads
import RemoteAgent.Proofs.Native.Failure

/-! Bodies of guarded scopes as code of threads. What a body comes to when it is run by itself is what
its code comes to; so what holds of code on any number of threads holds of bodies. -/

namespace RemoteAgent.Fault

open RemoteAgent.Action

variable {α β : Type} {f : α → β} {g : β → α}

namespace Code

def andThen (k : α → Code α) : Code α → Code α
  | done (.ok v) => k v
  | done (.error text) => .done (.error text)
  | trap signal address mended => .trap signal address (andThen k mended)
  | scope body next => .scope body fun r => andThen k (next r)
  | rescue body next => .rescue body fun r => andThen k (next r)

def carry (inside : Bool) (k : α → Code α) :
    Except Error (Except String α) → Except Error (Except String α)
  | .ok (.ok v) => (k v).ending inside
  | .ok (.error text) => .ok (.error text)
  | .error e => .error e

theorem ending_andThen (inside : Bool) (k : α → Code α) (c : Code α) :
    (c.andThen k).ending inside = carry inside k (c.ending inside) := by
  induction c with
  | done r =>
    cases r with
    | ok v => rfl
    | error text => rfl
  | trap signal address mended ih =>
    rw [andThen, ending, ending]
    split
    · rfl
    · exact ih
  | scope body next _ ihnext =>
    rw [andThen, ending, ending]
    cases body.ending true with
    | error e => exact ihnext _
    | ok r =>
      cases r with
      | ok v => exact ihnext _
      | error text => rfl
  | rescue body next _ ihnext =>
    rw [andThen, ending, ending]
    cases body.ending inside with
    | error e => rfl
    | ok r => exact ihnext r

def via (f : α → β) (g : β → α) : Code α → Code β
  | done r => .done (r.map f)
  | trap signal address mended => .trap signal address (via f g mended)
  | scope body next => .scope (via f g body) fun r => via f g (next (r.map g))
  | rescue body next => .rescue (via f g body) fun r => via f g (next (r.map g))

theorem map_leftInverse {ε : Type} (hg : Function.LeftInverse g f) (r : Except ε α) :
    (r.map f).map g = r := by
  cases r with
  | error e => rfl
  | ok v => exact congrArg Except.ok (hg v)

theorem ending_via (hg : Function.LeftInverse g f) (c : Code α) (inside : Bool) :
    (c.via f g).ending inside = (c.ending inside).map (Except.map f) := by
  induction c generalizing inside with
  | done r => rfl
  | trap signal address mended ih =>
    rw [via, ending, ending]
    split
    · rfl
    · exact ih inside
  | scope body next ihbody ihnext =>
    rw [via, ending, ending, ihbody]
    cases body.ending true with
    | error e => exact ihnext (.error e) inside
    | ok r =>
      cases r with
      | error text => rfl
      | ok v =>
        show (via f g (next (((Except.ok v).map f).map g))).ending inside = _
        rw [map_leftInverse hg]
        exact ihnext (.ok v) inside
  | rescue body next ihbody ihnext =>
    rw [via, ending, ending, ihbody]
    cases body.ending inside with
    | error e => rfl
    | ok r =>
      show (via f g (next ((r.map f).map g))).ending inside = _
      rw [map_leftInverse hg]
      exact ihnext r inside

end Code

def readByte (m : Memory.Space) (address : Nat) : Except Signal UInt64 :=
  match m.trap? .read address with
  | none => .ok (UInt64.ofNat (Wire.leValue (m.bytesAt address 1)))
  | some signal => .error (if signal = 7 then .bus else .segmentation)

def Exit.ofExcept : Except String UInt64 → Exit
  | .ok v => .value v
  | .error text => .panicked text

def Exit.except : Exit → Except String UInt64
  | .value v => .ok v
  | .panicked text => .error text

namespace Body

mutual

def Inward : Body → Prop
  | value _ => True
  | touch _ => True
  | panic _ => True
  | sum parts => AllInward parts
  | scope body _ => Inward body
  | outside _ => False

def AllInward : List Body → Prop
  | [] => True
  | part :: r => Inward part ∧ AllInward r

end

def settled (otherwise : UInt64) : Except Error UInt64 → UInt64
  | .ok v => v + 1
  | .error _ => otherwise

mutual

def code (read : Nat → Except Signal UInt64) : Body → Code UInt64
  | value v => .done (.ok v)
  | touch address =>
    match read address with
    | .ok v => .done (.ok v)
    | .error signal => .trap signal address (.done (.ok 0))
  | panic text => .done (.error text)
  | sum parts => codeAll read 0 parts
  | scope body otherwise => .scope (code read body) fun r => .done (.ok (settled otherwise r))
  | outside _ => .done (.ok 0)

def codeAll (read : Nat → Except Signal UInt64) (total : UInt64) : List Body → Code UInt64
  | [] => .done (.ok total)
  | part :: r => (code read part).andThen fun v => codeAll read (total + v) r

end

/-- An action on a host comes to this, and leaves it as it was but for the number of scopes. -/
def Gives (act : Action Host Exit) (h : Host) (e : Except Error (Except String UInt64)) : Prop :=
  (act h).result = e.map Exit.ofExcept ∧ ∃ k, (act h).state = Scopes.setOpenScopes k h

theorem gives_pure (r : Except String UInt64) (h : Host) :
    Gives (pure (Exit.ofExcept r)) h (.ok r) := ⟨rfl, _, rfl⟩

theorem readByte_setOpenScopes (k : Nat) (h : Host) :
    readByte (Scopes.setOpenScopes k h).memory = readByte h.memory := rfl

theorem gives_touch (address : Nat) (h : Host) :
    Gives (run (touch address)) h ((code (readByte h.memory) (touch address)).ending true) := by
  rw [Gives, run, code, readByte]
  cases htrap : h.memory.trap? .read address with
  | none =>
    have hload : (Memory.Space.load address 1).on Host.memory (fun m h => { h with memory := m }) h =
        ⟨.ok (h.memory.bytesAt address 1), h, []⟩ := by
      rw [Action.on, Memory.Space.load, bind_of_ok (get_apply _), Memory.Space.firstTrap?, htrap]
      rfl
    rw [bind_of_ok hload]
    exact ⟨rfl, _, rfl⟩
  | some signal =>
    have hload : (Memory.Space.load address 1).on Host.memory (fun m h => { h with memory := m }) h =
        ⟨.error (.fault signal (Memory.told address)), h, []⟩ := by
      rw [Action.on, Memory.Space.load, bind_of_ok (get_apply _), Memory.Space.firstTrap?, htrap]
      rfl
    have hnumber : (if signal = 7 then Signal.bus else .segmentation).number = signal := by
      rcases Memory.Space.signal_of_trap? htrap with rfl | rfl
      · rfl
      · rfl
    rw [bind_of_error hload]
    dsimp only
    rw [Code.ending, if_pos rfl, hnumber]
    exact ⟨rfl, _, rfl⟩

theorem gives_scope {body : Body} (otherwise : UInt64) (hbody : ∀ h,
    Gives (run body) h ((code (readByte h.memory) body).ending true)) (h : Host) :
    Gives (run (scope body otherwise)) h
      ((code (readByte h.memory) (scope body otherwise)).ending true) := by
  obtain ⟨k, hresult, hstate⟩ := guarded_apply (run body) h
  obtain ⟨hgives, l, hl⟩ := hbody (Scopes.setOpenScopes (Scopes.openScopes h + 1) h)
  rw [readByte_setOpenScopes] at hgives
  rw [Gives, run, bind_of_ok (attempt_apply _ h), code, Code.ending]
  refine ⟨?_, k, ?_⟩
  · show Except.ok (resume otherwise (guarded (run body) h).result) = _
    rw [hresult, hgives]
    cases (code (readByte h.memory) body).ending true with
    | error e => rfl
    | ok r =>
      cases r with
      | ok v => rfl
      | error text => rfl
  · show (guarded (run body) h).state = _
    rw [hstate, hl]
    rfl

theorem gives_cons {part : Body} {parts : List Body} (total : UInt64)
    (hpart : ∀ h, Gives (run part) h ((code (readByte h.memory) part).ending true))
    (hparts : ∀ total h, Gives (runAll total parts) h
      ((codeAll (readByte h.memory) total parts).ending true)) (h : Host) :
    Gives (runAll total (part :: parts)) h
      ((codeAll (readByte h.memory) total (part :: parts)).ending true) := by
  obtain ⟨hresult, k, hstate⟩ := hpart h
  rw [Gives, runAll, codeAll, Code.ending_andThen]
  cases hr : run part h with
  | mk result h' es =>
    rw [hr] at hresult hstate
    cases hending : (code (readByte h.memory) part).ending true with
    | error e =>
      rw [hending] at hresult
      cases hresult
      rw [bind_of_error hr]
      exact ⟨rfl, k, hstate⟩
    | ok r =>
      rw [hending] at hresult
      cases hresult
      rw [bind_of_ok hr]
      cases r with
      | error text => exact ⟨rfl, k, hstate⟩
      | ok v =>
        cases hstate
        obtain ⟨hlast, l, hl⟩ := hparts (total + v) (Scopes.setOpenScopes k h)
        exact ⟨hlast, l, hl⟩

mutual

theorem gives_run : ∀ b : Body, b.Inward → ∀ h,
    Gives (run b) h ((code (readByte h.memory) b).ending true)
  | value v, _, h => gives_pure (.ok v) h
  | touch address, _, h => gives_touch address h
  | panic text, _, h => gives_pure (.error text) h
  | sum parts, hb, h => gives_runAll parts hb 0 h
  | scope body otherwise, hb, h => gives_scope otherwise (gives_run body hb) h
  | outside _, hb, _ => hb.elim

theorem gives_runAll : ∀ parts : List Body, AllInward parts → ∀ total h,
    Gives (runAll total parts) h ((codeAll (readByte h.memory) total parts).ending true)
  | [], _, total, h => gives_pure (.ok total) h
  | part :: parts, hparts, total, h =>
    gives_cons total (gives_run part hparts.1) (gives_runAll parts hparts.2) h

end

theorem guarded_run {b : Body} (hb : b.Inward) (h : Host) :
    (guarded (run b) h).result.map Exit.except = (b.code (readByte h.memory)).ending true := by
  obtain ⟨k, hresult, -⟩ := guarded_apply (run b) h
  rw [hresult, (gives_run b hb _).1, readByte_setOpenScopes]
  cases (code (readByte h.memory) b).ending true with
  | error e => rfl
  | ok r =>
    cases r with
    | ok v => rfl
    | error text => rfl

end Body

end RemoteAgent.Fault
