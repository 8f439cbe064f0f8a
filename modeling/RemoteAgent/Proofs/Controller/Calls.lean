import RemoteAgent.Controller.Call
import RemoteAgent.Proofs.Agent.Replies
import RemoteAgent.Proofs.Text.Utf8
import RemoteAgent.Proofs.Wire.Reading

/-! Typed calls and the operations of the agent that they stand for: what the dispatcher replies to
a call's request is read as the result of the operation, and the agent is left as the operation
leaves it. -/

namespace RemoteAgent.Controller

open RemoteAgent.Action

section Outcomes

variable {α : Type}

def succeeded (act : Action Context α) : Action Context Bool := Except.isOk <$> act.attempt

def valued (act : Action Context α) : Action Context (Option α) := Except.toOption <$> act.attempt

/-- The failure that a controller sees: the agent's own, as a text. -/
def reported (e : Error) : Error := .nativeCall (.reported e.message)

def told (act : Action Context α) : Action Context α := do
  match ← act.attempt with
  | .ok a => return a
  | .error e => .fail (reported e)

theorem succeeded_apply (act : Action Context α) (c : Context) :
    (succeeded act c).result = .ok (act c).result.isOk ∧ (succeeded act c).state = (act c).state := by
  rw [succeeded, map_apply]
  exact ⟨rfl, rfl⟩

theorem valued_apply (act : Action Context α) (c : Context) :
    (valued act c).result = .ok (act c).result.toOption ∧ (valued act c).state = (act c).state := by
  rw [valued, map_apply]
  exact ⟨rfl, rfl⟩

theorem told_apply (act : Action Context α) (c : Context) :
    (told act c).result = (act c).result.mapError reported ∧ (told act c).state = (act c).state := by
  rw [told, bind_of_ok (attempt_apply act c)]
  cases (act c).result <;> exact ⟨rfl, rfl⟩

end Outcomes

section Operations

open Context

def readWithin (address : UInt64) (size : UInt32) : Action Context (Option (List UInt8)) := do
  let budget := Message.maxValueLength (← Action.get).config.channel.maxMessageSize
  if size.toNat ≤ budget then valued (inMemory (Memory.Engine.read address.toNat size.toNat))
  else pure none

def protection? (address : UInt64) : Action Context (Option UInt32) := do
  let code ← inMemory (Memory.Engine.query address.toNat)
  return if code = 0 then none else some code

def created (name : String) (count : UInt32) : Action Context UInt64 := do
  match ← told (inFunctions (Registry.create name count.toNat)) with
  | 0 => .fail (.nativeCall (.reported "Trampoline has no code address"))
  | address => return UInt64.ofNat address

/-- Each call, with the operation done directly in the agent. -/
inductive StandsFor : {α : Type} → Call α → Action Context α → Prop
  | isValid : StandsFor Call.isValid (pure true)
  | closeProcess : StandsFor Call.closeProcess (pure true)
  | readMemory (address : UInt64) (size : UInt32) :
    StandsFor (Call.readMemory address size) (readWithin address size)
  | writeMemory (address : UInt64) (data : List UInt8) :
    StandsFor (Call.writeMemory address data)
      (succeeded (inMemory (Memory.Engine.write address.toNat data)))
  | allocateMemory (size allocationType protect : UInt32) :
    StandsFor (Call.allocateMemory size allocationType protect)
      (valued (UInt64.ofNat <$>
        inMemory (Memory.Engine.allocate size.toNat allocationType protect)))
  | freeMemory (address : UInt64) :
    StandsFor (Call.freeMemory address)
      (succeeded (inMemory (Memory.Engine.free address.toNat)))
  | queryMemory (address : UInt64) : StandsFor (Call.queryMemory address) (protection? address)
  | protectMemory (address : UInt64) (size protect : UInt32) :
    StandsFor (Call.protectMemory address size protect)
      (succeeded (inMemory (Memory.Engine.protect address.toNat size.toNat protect)))
  | callFunction (address : UInt64) (args : List UInt64) :
    StandsFor (Call.callFunction address args) (told (Native.call address.toNat args))
  | allocateConsole : StandsFor Call.allocateConsole (pure false)
  | createFunction (name : String) (count : UInt32) :
    StandsFor (Call.createFunction name count) (created name count)
  | freeFunction (name : String) :
    StandsFor (Call.freeFunction name) (inFunctions (Registry.free name))

end Operations

def Agreed {α : Type} (call : Call α) (direct : Action Context α) (c : Context) : Prop :=
  ∃ act r, Context.reply? call.request = some act ∧ (act c).result = .ok r ∧
    (act c).state = (direct c).state ∧ call.read r = (direct c).result

section Replies

variable {α : Type} {c : Context}

theorem decodePointer_encodePointer (a : UInt64) : decodePointer (Wire.encodePointer a) = .ok a := by
  have hlen : (Wire.encodePointer a).length = 8 := Wire.length_leBytes 8 a.toNat
  have hval : Wire.leValue (Wire.encodePointer a) = a.toNat := by
    rw [Wire.encodePointer, Wire.leValue_leBytes]
    exact Nat.mod_eq_of_lt a.toNat_lt
  rw [decodePointer, if_pos hlen, hval, UInt64.ofNat_toNat]

theorem decodeProtection_leBytes (code : UInt32) :
    decodeProtection (Wire.leBytes 4 code.toNat) = .ok code := by
  have hval : Wire.leValue (Wire.leBytes 4 code.toNat) = code.toNat := by
    rw [Wire.leValue_leBytes]
    exact Nat.mod_eq_of_lt code.toNat_lt
  rw [decodeProtection, if_pos (Wire.length_leBytes 4 _), hval, UInt32.ofNat_toNat]

theorem agreed_status {call : Call Bool} {request : String} {fields : List (String × String)}
    {act : Action Context α} (hread : call.read = readStatus)
    (hreply : Context.reply? call.request = some (Context.status request fields act)) :
    Agreed call (succeeded act) c := by
  obtain ⟨hr, hs⟩ := Context.status_apply request fields act c
  obtain ⟨hr', hs'⟩ := succeeded_apply act c
  refine ⟨_, _, hreply, hr, hs.trans hs'.symm, ?_⟩
  rw [hread, hr']
  rfl

theorem agreed_readMemory (address : UInt64) (size : UInt32) :
    Agreed (Call.readMemory address size) (readWithin address size) c := by
  refine ⟨Context.readMemory address size, ?_⟩
  rw [readWithin, Context.readMemory, bind_of_ok (get_apply c), bind_of_ok (get_apply c)]
  dsimp only
  rcases Nat.lt_or_ge (Message.maxValueLength c.config.channel.maxMessageSize) size.toNat with
    hlt | hle
  · rw [if_pos hlt, if_neg (Nat.not_le.2 hlt)]
    exact ⟨_, rfl, rfl, rfl, rfl⟩
  · rw [if_neg (Nat.not_lt.2 hle), if_pos hle]
    obtain ⟨hr, hs⟩ :=
      valued_apply (Context.inMemory (Memory.Engine.read address.toNat size.toNat)) c
    rw [hr, hs, bind_of_ok (attempt_apply _ c)]
    cases (Context.inMemory (Memory.Engine.read address.toNat size.toNat) c).result with
    | ok bytes => exact ⟨_, rfl, rfl, rfl, rfl⟩
    | error e => exact ⟨_, rfl, rfl, rfl, rfl⟩

theorem agreed_allocateMemory (size allocationType protect : UInt32) :
    Agreed (Call.allocateMemory size allocationType protect)
      (valued (UInt64.ofNat <$>
        Context.inMemory (Memory.Engine.allocate size.toNat allocationType protect))) c := by
  refine ⟨Context.allocateMemory size allocationType protect, ?_⟩
  obtain ⟨hr, hs⟩ := valued_apply (UInt64.ofNat <$>
    Context.inMemory (Memory.Engine.allocate size.toNat allocationType protect)) c
  rw [hr, hs, map_apply, Context.allocateMemory, bind_of_ok (attempt_apply _ c)]
  cases (Context.inMemory (Memory.Engine.allocate size.toNat allocationType protect) c).result with
  | ok address =>
    refine ⟨_, rfl, rfl, rfl, ?_⟩
    show (some <$> decodePointer (Wire.encodePointer (UInt64.ofNat address))) = _
    rw [decodePointer_encodePointer]
    rfl
  | error e => exact ⟨_, rfl, rfl, rfl, rfl⟩

theorem agreed_queryMemory (address : UInt64) :
    Agreed (Call.queryMemory address) (protection? address) c := by
  refine ⟨Context.queryMemory address, ?_⟩
  have hquery := Memory.Space.succeeds_query address.toNat c.memory
  have hin : (Context.inMemory (Memory.Engine.query address.toNat) c).result =
    (Memory.Engine.query address.toNat c.memory).result := rfl
  rw [← hin] at hquery
  cases hr : (Context.inMemory (Memory.Engine.query address.toNat) c).result with
  | error e =>
    rw [hr] at hquery
    exact hquery.elim
  | ok code =>
    obtain ⟨hresult, hstate⟩ := @bind_of_result _ _ _ _
      (fun code => pure (if code = 0 then none else some code)) c code hr
    rw [protection?, hresult, hstate]
    obtain ⟨hresult', hstate'⟩ := @bind_of_result _ _ Message _
      (fun code => do
        if code = 0 then return .statusWithValue false []
        return .statusWithValue true (Wire.leBytes 4 code.toNat)) c code hr
    rw [Context.queryMemory, hresult', hstate']
    by_cases h0 : code = 0
    · rw [if_pos h0, if_pos h0]
      exact ⟨_, rfl, rfl, rfl, rfl⟩
    · rw [if_neg h0, if_neg h0]
      refine ⟨_, rfl, rfl, rfl, ?_⟩
      show (some <$> decodeProtection (Wire.leBytes 4 code.toNat)) = _
      rw [decodeProtection_leBytes]
      rfl

theorem readResult_failureText (text : String) :
    readResult (.failureText text) = .error (.nativeCall (.reported text)) := by
  show Except.error (Error.nativeCall (.reported (Text.Utf8.lossy (Text.Utf8.encode text)))) = _
  rw [Text.Utf8.lossy_encode]

theorem readResult_pointerValue (a : UInt64) : readResult (.pointerValue a) = .ok a :=
  decodePointer_encodePointer a

theorem agreed_callFunction (address : UInt64) (args : List UInt64) :
    Agreed (Call.callFunction address args) (told (Native.call address.toNat args)) c := by
  refine ⟨Context.callFunction address args, ?_⟩
  rw [Context.callFunction, bind_of_ok (attempt_apply _ c)]
  obtain ⟨hr, hs⟩ := told_apply (Native.call address.toNat args) c
  rw [hr, hs]
  cases (Native.call address.toNat args c).result with
  | ok value => exact ⟨_, rfl, rfl, rfl, readResult_pointerValue value⟩
  | error e => exact ⟨_, rfl, rfl, rfl, readResult_failureText e.message⟩

theorem agreed_createFunction (name : String) (count : UInt32) :
    Agreed (Call.createFunction name count) (created name count) c := by
  refine ⟨Context.createFunction name count, ?_⟩
  obtain ⟨hr, hs⟩ := told_apply (Context.inFunctions (Registry.create name count.toNat)) c
  rw [Context.createFunction, bind_of_ok (attempt_apply _ c), created]
  cases ha : (Context.inFunctions (Registry.create name count.toNat) c).result with
  | ok address =>
    rw [ha] at hr
    obtain ⟨hresult, hstate⟩ := bind_of_result hr
    rw [hresult, hstate, hs]
    cases address with
    | zero => exact ⟨_, rfl, rfl, rfl, readResult_failureText _⟩
    | succ n => exact ⟨_, rfl, rfl, rfl, readResult_pointerValue _⟩
  | error e =>
    rw [ha] at hr
    obtain ⟨hresult, hstate⟩ := bind_of_failure hr
    rw [hresult, hstate, hs]
    exact ⟨_, rfl, rfl, rfl, readResult_failureText e.message⟩

theorem agreed_freeFunction (name : String) :
    Agreed (Call.freeFunction name) (Context.inFunctions (Registry.free name)) c := by
  have hfree := Context.succeeds_freeFunction name c
  cases hr : (Context.inFunctions (Registry.free name) c).result with
  | error e =>
    rw [hr] at hfree
    exact hfree.elim
  | ok b =>
    obtain ⟨hresult, hstate⟩ := @bind_of_result _ _ Message _ (fun b => pure (.status b)) c b hr
    exact ⟨_, _, rfl, hresult, hstate, hr.symm⟩

theorem StandsFor.agreed {call : Call α} {direct : Action Context α} (h : StandsFor call direct)
    (c : Context) : Agreed call direct c := by
  cases h with
  | isValid => exact ⟨_, _, rfl, rfl, rfl, rfl⟩
  | closeProcess => exact ⟨_, _, rfl, rfl, rfl, rfl⟩
  | readMemory address size => exact agreed_readMemory address size
  | writeMemory | freeMemory | protectMemory => exact agreed_status rfl rfl
  | allocateMemory size allocationType protect =>
    exact agreed_allocateMemory size allocationType protect
  | queryMemory address => exact agreed_queryMemory address
  | callFunction address args => exact agreed_callFunction address args
  | allocateConsole => exact ⟨_, _, rfl, rfl, rfl, rfl⟩
  | createFunction name count => exact agreed_createFunction name count
  | freeFunction name => exact agreed_freeFunction name

theorem StandsFor.failsOnly {call : Call α} {direct : Action Context α} (h : StandsFor call direct) :
    FailsOnly (fun e => ∃ text, e = .nativeCall (.reported text)) direct := by
  have hsucceeded : ∀ {β : Type} {bad : Error → Prop} (act : Action Context β),
      FailsOnly bad (succeeded act) := fun act c => by
    rw [(succeeded_apply act c).1]
    trivial
  have hvalued : ∀ {β : Type} {bad : Error → Prop} (act : Action Context β),
      FailsOnly bad (valued act) := fun act c => by
    rw [(valued_apply act c).1]
    trivial
  have htold : ∀ {β : Type} (act : Action Context β),
      FailsOnly (fun e => ∃ text, e = .nativeCall (.reported text)) (told act) := fun act c => by
    rw [(told_apply act c).1]
    cases (act c).result with
    | ok _ => trivial
    | error e => exact ⟨e.message, rfl⟩
  cases h with
  | isValid | closeProcess | allocateConsole => exact ends_pure trivial
  | readMemory address size =>
    refine ends_get.andThen fun c => ?_
    dsimp only
    split
    · exact hvalued _
    · exact ends_pure trivial
  | writeMemory | freeMemory | protectMemory => exact hsucceeded _
  | allocateMemory => exact hvalued _
  | queryMemory address =>
    have hquery := (Memory.Space.succeeds_query address.toNat).on Context.memory
      fun m (c : Context) => { c with memory := m }
    exact (hquery.mono (fun _ _ => trivial) fun _ h => h.elim).andThen fun _ => ends_pure trivial
  | callFunction => exact htold _
  | createFunction name count =>
    refine (htold _).andThen fun address => ?_
    split
    · exact ends_fail ⟨_, rfl⟩
    · exact ends_pure trivial
  | freeFunction name =>
    exact (Context.succeeds_freeFunction name).mono (fun _ _ => trivial) fun _ h => h.elim

end Replies

end RemoteAgent.Controller
