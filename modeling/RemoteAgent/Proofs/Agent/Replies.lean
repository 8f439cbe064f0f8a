import RemoteAgent.Agent.Dispatch
import RemoteAgent.Proofs.Agent.Trampolines
import RemoteAgent.Proofs.Memory.Allocation
import RemoteAgent.Proofs.Native.Failure

/-! The dispatcher's replies: every request gets one, whatever fails on the way, and a response gets
none. -/

namespace RemoteAgent

open RemoteAgent.Action

namespace Memory.Space

theorem succeeds_looked (asked : List Nat) : Succeeds (fun _ => True) (looked asked) := by
  unfold looked
  refine ends_get.andThen fun s => ?_
  split
  · exact ends_tell _
  · exact ends_pure trivial

theorem ends_read (address length : Nat) :
    Ends (fun bs => bs.length = length) (fun _ => True)
      (Engine.read address length : Action Space (List UInt8)) := by
  unfold Engine.read
  refine (ends_any _).andThen fun _ => ?_
  dsimp only
  split
  · next h0 =>
    have hnone : Ends (fun bs => bs.length = length) (fun _ => True)
        (pure [] : Action Space (List UInt8)) := ends_pure h0.symm
    exact hnone.bind fun bs hbs => (ends_tell _).andThen fun _ => ends_pure hbs
  · have hload : Ends (fun bs => bs.length = length) (fun _ => True)
        (AddressSpace.load address length : Action Space (List UInt8)) :=
      (Fault.ends_guarded (ends_load address length)).mono (fun _ h => h) fun _ _ => trivial
    exact hload.bind fun bs hbs => (ends_tell _).andThen fun _ => ends_pure hbs

theorem succeeds_query (address : Nat) :
    Succeeds (fun _ => True) (Engine.query address : Action Space UInt32) := by
  unfold Engine.query
  refine ends_get.andThen fun s => ?_
  exact (succeeds_looked [address]).andThen fun _ => ends_pure trivial

end Memory.Space

namespace Message

def operation? : Message → Option Memory.Operation
  | readMemory address size => some (.read address.toNat size.toNat)
  | writeMemory address data => some (.write address.toNat data)
  | allocateMemory size allocationType protect => some (.allocate size.toNat allocationType protect)
  | freeMemory address => some (.free address.toNat)
  | queryMemory address => some (.query address.toNat)
  | protectMemory address size protect => some (.protect address.toNat size.toNat protect)
  | _ => none

def isResponse : Message → Bool
  | status _ | statusWithValue _ _ | remoteCallResponse _ _ => true
  | _ => false

def isOrder : Message → Bool
  | closeProcess | isValid | writeMemory _ _ | freeMemory _ | protectMemory _ _ _
  | allocateConsole | freeFunction _ => true
  | _ => false

end Message

namespace Context

inductive Answers (c : Context) : Message → Message → Prop
  | status {m : Message} (success : Bool) (h : m.isOrder = true) : Answers c m (.status success)
  | read (address : UInt64) (size : UInt32) (bytes : List UInt8) (h : bytes.length = size.toNat)
    (hsize : size.toNat ≤ Message.maxValueLength c.config.channel.maxMessageSize) :
    Answers c (.readMemory address size) (.statusWithValue true bytes)
  | unread (address : UInt64) (size : UInt32) :
    Answers c (.readMemory address size) (.statusWithValue false [])
  | allocated (size allocationType protect : UInt32) (a : UInt64) :
    Answers c (.allocateMemory size allocationType protect) (.pointerValue a)
  | unallocated (size allocationType protect : UInt32) :
    Answers c (.allocateMemory size allocationType protect) (.statusWithValue false [])
  | protection (address : UInt64) (code : UInt32) :
    Answers c (.queryMemory address) (.statusWithValue true (Wire.leBytes 4 code.toNat))
  | unprotected (address : UInt64) :
    Answers c (.queryMemory address) (.statusWithValue false [])
  | called (address : UInt64) (args : List UInt64) (value : UInt64) :
    Answers c (.callFunction address args) (.pointerValue value)
  | uncalled (address : UInt64) (args : List UInt64) (e : Error) (h : CallFails args.length e) :
    Answers c (.callFunction address args) (.failureText e.message)
  | created (name : String) (count : UInt32) (a : UInt64)
    (h : c.functions.refusal? name count.toNat = none) :
    Answers c (.createFunction name count) (.pointerValue a)
  | noCode (name : String) (count : UInt32) (h : c.functions.refusal? name count.toNat = none) :
    Answers c (.createFunction name count) (.failureText "Trampoline has no code address")
  | refused (name : String) (count : UInt32) (f : ResourceFault)
    (h : c.functions.refusal? name count.toNat = some f) :
    Answers c (.createFunction name count) (.failureText (Error.resourceExhausted f).message)
  | zero (name : String) (args : List UInt64) :
    Answers c (.remoteCall name args) (.remoteCallResponse 0 0)

variable {c : Context}

theorem status_apply {α : Type} (request : String) (fields : List (String × String))
    (act : Action Context α) (c : Context) :
    (status request fields act c).result = .ok (.status (act c).result.isOk) ∧
      (status request fields act c).state = (act c).state := by
  rw [status, bind_of_ok (attempt_apply act c)]
  cases (act c).result <;> exact ⟨rfl, rfl⟩

theorem succeeds_status {α : Type} {m : Message} (h : m.isOrder = true) (request : String)
    (fields : List (String × String)) (act : Action Context α) :
    Succeeds (Answers c m) (status request fields act) := by
  unfold status
  refine (ends_any act).attempt.bind fun r _ => ?_
  split
  · exact ends_pure (.status true h)
  · exact (ends_tell _).andThen fun _ => ends_pure (.status false h)

theorem fits_readMemory (address : UInt64) (size : UInt32) :
    Fits (Answers c (.readMemory address size)) (fun _ => False)
      (readMemory address size c).result := by
  -- The limit is that of the context the request meets, so this state is followed by hand.
  rw [readMemory, bind_of_ok (get_apply c)]
  dsimp only
  split
  · exact (ends_tell _).andThen (fun _ => ends_pure (.unread address size)) c
  · next hle =>
    have hread : Fits (Fits (fun bs : List UInt8 => bs.length = size.toNat) fun _ => True)
        (fun _ => False)
        ((inMemory (Memory.Engine.read address.toNat size.toNat)).attempt c).result :=
      ((Memory.Space.ends_read _ _).on _ _).attempt c
    refine hread.bind fun r hr => ?_
    split
    · exact ends_pure (.read address size _ hr (Nat.not_lt.1 hle))
    · exact (ends_tell _).andThen fun _ => ends_pure (.unread address size)

theorem succeeds_allocateMemory (size allocationType protect : UInt32) :
    Succeeds (Answers c (.allocateMemory size allocationType protect))
      (allocateMemory size allocationType protect) := by
  unfold allocateMemory
  refine (ends_any _).attempt.bind fun r _ => ?_
  split
  · exact ends_pure (.allocated _ _ _ _)
  · exact (ends_tell _).andThen fun _ => ends_pure (.unallocated _ _ _)

theorem succeeds_queryMemory (address : UInt64) :
    Succeeds (Answers c (.queryMemory address)) (queryMemory address) := by
  unfold queryMemory
  have hquery := (Memory.Space.succeeds_query address.toNat).on Context.memory
    fun m (c : Context) => { c with memory := m }
  refine Ends.andThen hquery fun code => ?_
  split
  · exact ends_pure (.unprotected address)
  · exact ends_pure (.protection address code)

theorem succeeds_callFunction (address : UInt64) (args : List UInt64) :
    Succeeds (Answers c (.callFunction address args)) (callFunction address args) := by
  unfold callFunction
  refine (ends_call address.toNat args).attempt.bind fun r hr => ?_
  split
  · exact ends_pure (.called address args _)
  · exact ends_pure (.uncalled address args _ hr)

theorem createFunction_of_refusal {name : String} {count : UInt32} {f : ResourceFault}
    (h : c.functions.refusal? name count.toNat = some f) :
    (createFunction name count c).result =
      .ok (.failureText (Error.resourceExhausted f).message) := by
  have hcreate := Registry.result_createAt (Native.stubAddress c.functions.tried) name count.toNat
    c.functions
  rw [h] at hcreate
  have hresult : (inFunctions (Registry.create name count.toNat) c).result =
      .error (.resourceExhausted f) := hcreate
  rw [createFunction, bind_of_ok (attempt_apply _ c), hresult]
  rfl

theorem fits_createFunction (name : String) (count : UInt32) :
    Fits (Answers c (.createFunction name count)) (fun _ => False)
      (createFunction name count c).result := by
  cases hrefusal : c.functions.refusal? name count.toNat with
  | some f =>
    rw [createFunction_of_refusal hrefusal]
    exact .refused name count f hrefusal
  | none =>
    have hcreate := Registry.result_createAt (Native.stubAddress c.functions.tried) name count.toNat
      c.functions
    rw [hrefusal] at hcreate
    obtain ⟨a, ha⟩ := hcreate
    have hresult : (inFunctions (Registry.create name count.toNat) c).result = .ok a := ha
    rw [createFunction, bind_of_ok (attempt_apply _ c), hresult]
    cases a with
    | zero => exact .noCode name count hrefusal
    | succ a => exact .created name count _ hrefusal

theorem succeeds_freeFunction (name : String) :
    Succeeds (fun _ => True) (inFunctions (Registry.free name)) := by
  refine Ends.on ?_ _ _
  unfold Registry.free
  refine ends_get.andThen fun r => ?_
  split
  · exact (ends_set _).andThen fun _ => (ends_tell _).andThen fun _ => ends_pure trivial
  · exact (ends_tell _).andThen fun _ => ends_pure trivial

theorem isResponse_iff (m : Message) : m.isResponse = true ↔ reply? m = none := by
  cases m <;> simp [Message.isResponse, reply?]

theorem fits_reply {m : Message} {act : Action Context Message} (h : reply? m = some act)
    (c : Context) : Fits (Answers c m) (fun _ => False) (act c).result := by
  cases m with
  | status | statusWithValue | remoteCallResponse => cases h
  | closeProcess =>
    cases h
    exact (ends_tell _).andThen (fun _ => ends_pure (.status true rfl)) c
  | isValid =>
    cases h
    exact .status true rfl
  | readMemory address size =>
    cases h
    exact fits_readMemory address size
  | writeMemory | freeMemory | protectMemory =>
    cases h
    exact succeeds_status rfl _ _ _ c
  | allocateMemory size allocationType protect =>
    cases h
    exact succeeds_allocateMemory size allocationType protect c
  | queryMemory address =>
    cases h
    exact succeeds_queryMemory address c
  | callFunction address args =>
    cases h
    exact succeeds_callFunction address args c
  | allocateConsole =>
    cases h
    exact (ends_tell _).andThen (fun _ => ends_pure (.status false rfl)) c
  | createFunction name count =>
    cases h
    exact fits_createFunction name count
  | freeFunction name =>
    cases h
    exact (succeeds_freeFunction name).andThen (fun b => ends_pure (.status b rfl)) c
  | remoteCall name args =>
    cases h
    exact (ends_tell _).andThen (fun _ => ends_pure (.zero name args)) c

theorem state_handle_of_reply? {m r : Message} {act : Action Context Message}
    (h : reply? m = some act) {c : Context} (hr : (act c).result = .ok r) :
    (handle m c).state = (act c).state := by
  rw [handle, h]
  exact (bind_of_result hr).2

theorem handle_of_reply? {m r : Message} {act : Action Context Message} (h : reply? m = some act)
    {c : Context} (hr : (act c).result = .ok r) :
    (handle m c).result = .ok { response := some r, keepOpen := m ≠ .closeProcess } := by
  cases ha : act c with
  | mk r' t es =>
    rw [ha] at hr
    cases hr
    rw [handle, h]
    dsimp only
    rw [bind_of_ok ha]
    rfl

theorem fits_handle (m : Message) (c : Context) :
    Fits (fun h => h.keepOpen = decide (m ≠ .closeProcess) ∧
        (h.response = none ↔ m.isResponse = true) ∧ ∀ r, h.response = some r → Answers c m r)
      (fun _ => False) (handle m c).result := by
  unfold handle
  cases hm : reply? m with
  | none =>
    have hresponse := (isResponse_iff m).2 hm
    refine (ends_tell _).andThen (fun _ => ends_pure ?_) c
    refine ⟨?_, iff_of_true rfl hresponse, fun r h => by cases h⟩
    cases m <;> first | rfl | cases hresponse
  | some act =>
    refine (fits_reply hm c).bind fun r hr => ends_pure ⟨rfl, ?_, ?_⟩
    · rw [isResponse_iff, hm]
      exact iff_of_false (fun h => by cases h) fun h => by cases h
    · intro r' h
      cases h
      exact hr

section Invariants

/-- A property of an agent that its requests keep, those about memory aside: it is one of neither the
registry nor the bridge, and native code keeps it in all that it does to memory. -/
structure Shielded (P : Context → Prop) : Prop where
  scopes : ∀ (n : Nat) (c : Context), P c → P (Fault.Scopes.setOpenScopes n c)
  functions : ∀ {α : Type} (act : Action Registry α), Preserves P (inFunctions act)
  bridge : ∀ {α : Type} (act : Action Bridge α), Preserves P (inBridge act)
  code : ∀ c, P c → ∀ address args, (c.program.course address args).Changes fun change =>
    Preserves P (inMemory (.modify (·.workedOn change)))

variable {P : Context → Prop}

theorem Shielded.run (hP : Shielded P) (course : Native.Course) (h : course.ReturnsOrTraps)
    (hchanges : course.Changes fun change => Preserves P (inMemory (.modify (·.workedOn change)))) :
    Preserves P (course.run h : Action Context UInt64) := by
  induction course with
  | value v => exact preserves_pure v
  | trap signal a => exact preserves_fail _
  | memory change next ih =>
    rw [Native.Course.run]
    refine Preserves.get_bind fun c _ => Preserves.bind hchanges.1 fun _ => ?_
    exact ih _ (h _) (hchanges.2 _)
  | callback address args next ih =>
    rw [Native.Course.run]
    refine Preserves.get_bind fun c _ => ?_
    cases ht : Native.Machine.trampoline? c address with
    | none => exact preserves_fail _
    | some run =>
      obtain ⟨t, -, rfl⟩ := Option.map_eq_some_iff.1 ht
      exact Preserves.bind (hP.bridge _) fun v => ih v (h v) (hchanges v)
  | away => exact h.elim

theorem Shielded.jump (hP : Shielded P) (address : Nat) (args : List UInt64) :
    Preserves P (Native.jump address args : Action Context UInt64) := by
  unfold Native.jump
  refine Preserves.get_bind fun c hc => ?_
  split
  · next run ht =>
    obtain ⟨t, -, rfl⟩ := Option.map_eq_some_iff.1 ht
    exact hP.bridge _
  · split
    · exact preserves_fail _
    · exact hP.run _ _ (hP.code c hc address args)

theorem Shielded.call (hP : Shielded P) (address : Nat) (args : List UInt64) :
    Preserves P (Native.call address args : Action Context UInt64) := by
  unfold Native.call
  dsimp only
  refine preserves_unless ((preserves_ofExcept _).bind fun d => (preserves_tell _).bind fun _ => ?_)
  have hinvoke : Preserves P (d.invoke address args : Action Context UInt64) := by
    unfold Native.Descriptor.invoke
    split
    · exact hP.jump address args
    · exact preserves_fail _
  refine (Fault.preserves_guarded hP.scopes hinvoke).attempt.bind fun r => ?_
  cases r with
  | ok value => exact (preserves_tell _).bind fun _ => preserves_pure _
  | error e => exact (preserves_tell _).bind fun _ => preserves_fail _

theorem preserves_status {α : Type} (request : String) (fields : List (String × String))
    {act : Action Context α} (h : Preserves P act) :
    Preserves P (status request fields act) := by
  unfold status
  refine h.attempt.bind fun r => ?_
  cases r with
  | ok _ => exact preserves_pure _
  | error e => exact (preserves_tell _).bind fun _ => preserves_pure _

/-- A request keeps such a property, if it asks nothing of the memory or the property is not one of
that either. -/
theorem Shielded.reply (hP : Shielded P) {m : Message} {act : Action Context Message}
    (hmemory : m.operation? = none ∨
      ∀ {α : Type} (act : Action Memory.Space α), Preserves P (inMemory act))
    (h : reply? m = some act) : Preserves P act := by
  cases m with
  | status | statusWithValue | remoteCallResponse => cases h
  | closeProcess | allocateConsole | remoteCall =>
    cases h
    exact (preserves_tell _).bind fun _ => preserves_pure _
  | isValid =>
    cases h
    exact preserves_pure _
  | readMemory address size =>
    cases h
    unfold readMemory
    refine Preserves.get_bind fun c _ => ?_
    dsimp only
    split
    · exact (preserves_tell _).bind fun _ => preserves_pure _
    · refine (hmemory.resolve_left (fun h => by cases h) _).attempt.bind fun r => ?_
      cases r with
      | ok bytes => exact preserves_pure _
      | error e => exact (preserves_tell _).bind fun _ => preserves_pure _
  | writeMemory | freeMemory | protectMemory =>
    cases h
    exact preserves_status _ _ (hmemory.resolve_left (fun h => by cases h) _)
  | allocateMemory size allocationType protect =>
    cases h
    refine (hmemory.resolve_left (fun h => by cases h) _).attempt.bind fun r => ?_
    cases r with
    | ok address => exact preserves_pure _
    | error e => exact (preserves_tell _).bind fun _ => preserves_pure _
  | queryMemory address =>
    cases h
    refine (hmemory.resolve_left (fun h => by cases h) _).bind fun code => ?_
    split
    · exact preserves_pure _
    · exact preserves_pure _
  | callFunction address args =>
    cases h
    refine (hP.call address.toNat args).attempt.bind fun r => ?_
    cases r with
    | ok value => exact preserves_pure _
    | error e => exact preserves_pure _
  | createFunction name count =>
    cases h
    refine (hP.functions _).attempt.bind fun r => ?_
    split
    · exact preserves_pure _
    · exact preserves_pure _
    · exact (preserves_tell _).bind fun _ => preserves_pure _
  | freeFunction name =>
    cases h
    exact (hP.functions _).bind fun b => preserves_pure _

theorem Shielded.handle (hP : Shielded P) {m : Message}
    (hmemory : m.operation? = none ∨
      ∀ {α : Type} (act : Action Memory.Space α), Preserves P (inMemory act)) :
    Preserves P (handle m) := by
  unfold Context.handle
  cases hm : reply? m with
  | none => exact (preserves_tell _).bind fun _ => preserves_pure _
  | some act => exact (hP.reply hmemory hm).bind fun _ => preserves_pure _

theorem shielded_config (config : Config) : Shielded fun c => c.config = config where
  scopes := fun _ _ h => h
  functions := fun _ _ h => h
  bridge := fun _ _ h => h
  code := fun c _ address args =>
    (c.program.course address args).changes_of_forall fun _ _ h => h

theorem keeps_handle (m : Message) : Keeps config (handle m) := fun c =>
  (shielded_config c.config).handle (.inr fun _ _ h => h) c rfl

end Invariants

end Context

end RemoteAgent
