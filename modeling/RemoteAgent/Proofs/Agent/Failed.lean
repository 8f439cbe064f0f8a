import RemoteAgent.Proofs.Agent.Replies
import RemoteAgent.Proofs.Agent.Trampolines
import RemoteAgent.Proofs.Memory.Residue

/-! Requests that are answered as failed, in whatever state an agent has come to: what was mapped, was
allocated and was registered is so afterwards. Only a copy that trapped has left bytes behind, and
only a protection that was refused half-way has changed pages. -/

namespace RemoteAgent

open RemoteAgent.Action Memory

def Native.Program.KeepsOrder (p : Native.Program) : Prop :=
  ∀ address args, (p.course address args).Changes fun change =>
    ∀ s : Space, s.Ordered → (change s).Ordered

/-- A reply that says that its request has failed. -/
def Message.tellsFailure : Message → Bool
  | status success | statusWithValue success _ => !success
  | _ => false

namespace Context

section Serve

def after (c : Context) (op : Operation) : Context := { c with memory := (op.run c.memory).state }

inductive Serves (c : Context) (op : Operation) : Message → Context → Prop
  | unchanged (r : Message) : Serves c op r c
  | done (r : Message) (h : r.tellsFailure = false) : Serves c op r (c.after op)
  | failed (r : Message) (e : Error) (h : (op.run c.memory).result = .error e) :
    Serves c op r (c.after op)

variable {c : Context} {r : Message}

theorem serves_of_run {op : Operation} {α : Type} {act : Action Space α} {f : α → Operation.Value}
    (hop : op.run = f <$> act) (hr : r.tellsFailure = true → ∃ e, (act c.memory).result = .error e) :
    Serves c op r (inMemory act c).state := by
  have hstate : (inMemory act c).state = c.after op := by
    rw [after, hop, map_apply]
    rfl
  rw [hstate]
  cases hfail : r.tellsFailure with
  | false => exact .done r hfail
  | true =>
    obtain ⟨e, he⟩ := hr hfail
    refine .failed r e ?_
    rw [hop, map_apply, he]
    rfl

theorem serves_status (op : Operation) {α : Type} {act : Action Space α}
    {f : α → Operation.Value} (hop : op.run = f <$> act) (request : String) (fields : List (String × String)) :
    ∃ r, (status request fields (inMemory act) c).result = .ok r ∧
      Serves c op r (status request fields (inMemory act) c).state := by
  obtain ⟨hresult, hstate⟩ := status_apply request fields (inMemory act) c
  rw [hstate]
  refine ⟨_, hresult, serves_of_run hop fun hfail => ?_⟩
  show ∃ e, (inMemory act c).result = .error e
  cases hr : (inMemory act c).result with
  | error e => exact ⟨e, rfl⟩
  | ok a =>
    rw [hr] at hfail
    cases hfail

theorem serves_readMemory (address : UInt64) (size : UInt32) :
    ∃ r, (readMemory address size c).result = .ok r ∧
      Serves c (.read address.toNat size.toNat) r (readMemory address size c).state := by
  rw [readMemory, bind_of_ok (get_apply c)]
  dsimp only
  split
  · exact ⟨_, rfl, .unchanged _⟩
  · rw [bind_of_ok (attempt_apply _ c)]
    cases hr : (inMemory (Engine.read address.toNat size.toNat) c).result with
    | ok bytes => exact ⟨_, rfl, serves_of_run rfl fun hfail => by cases hfail⟩
    | error e => exact ⟨_, rfl, serves_of_run rfl fun _ => ⟨e, hr⟩⟩

theorem serves_allocateMemory (size allocationType protect : UInt32) :
    ∃ r, (allocateMemory size allocationType protect c).result = .ok r ∧
      Serves c (.allocate size.toNat allocationType protect) r
        (allocateMemory size allocationType protect c).state := by
  rw [allocateMemory, bind_of_ok (attempt_apply _ c)]
  cases hr : (inMemory (Engine.allocate size.toNat allocationType protect) c).result with
  | ok address => exact ⟨_, rfl, serves_of_run rfl fun hfail => by cases hfail⟩
  | error e => exact ⟨_, rfl, serves_of_run rfl fun _ => ⟨e, hr⟩⟩

theorem serves_queryMemory (address : UInt64) :
    ∃ r, (queryMemory address c).result = .ok r ∧
      Serves c (.query address.toNat) r (queryMemory address c).state := by
  obtain ⟨r, hr, -⟩ := (succeeds_queryMemory (c := c) address).exists_eq_ok c
  have hkeeps : Keeps id (queryMemory address) := by
    have hquery : Keeps id (inMemory (Engine.query address.toNat)) := by
      intro c
      show { c with memory := (Engine.query address.toNat c.memory).state } = c
      rw [show (Engine.query address.toNat c.memory).state = c.memory from keeps_query id _ _]
    refine hquery.bind fun code => ?_
    split
    · exact keeps_pure _
    · exact keeps_pure _
  refine ⟨r, hr, ?_⟩
  rw [show (queryMemory address c).state = c from hkeeps c]
  exact .unchanged r

theorem serves {m : Message} {op : Operation} (hm : m.operation? = some op) (c : Context) :
    ∃ act r, reply? m = some act ∧ (act c).result = .ok r ∧ Serves c op r (act c).state := by
  cases m with
  | readMemory address size =>
    cases hm
    obtain ⟨r, hr⟩ := serves_readMemory (c := c) address size
    exact ⟨_, r, rfl, hr⟩
  | allocateMemory size allocationType protect =>
    cases hm
    obtain ⟨r, hr⟩ := serves_allocateMemory (c := c) size allocationType protect
    exact ⟨_, r, rfl, hr⟩
  | queryMemory address =>
    cases hm
    obtain ⟨r, hr⟩ := serves_queryMemory (c := c) address
    exact ⟨_, r, rfl, hr⟩
  | writeMemory address data =>
    cases hm
    obtain ⟨r, hr⟩ := serves_status (c := c) (.write address.toNat data) rfl _ _
    exact ⟨_, r, rfl, hr⟩
  | freeMemory address =>
    cases hm
    obtain ⟨r, hr⟩ := serves_status (c := c) (.free address.toNat) rfl _ _
    exact ⟨_, r, rfl, hr⟩
  | protectMemory address size protect =>
    cases hm
    obtain ⟨r, hr⟩ :=
      serves_status (c := c) (.protect address.toNat size.toNat protect) rfl _ _
    exact ⟨_, r, rfl, hr⟩
  | _ => cases hm

end Serve

section Registry

variable {c : Context} {r : Message} {name : String}

theorem state_createFunction {count : UInt32} : (createFunction name count c).state =
    { c with functions := (Registry.create name count.toNat c.functions).state } := by
  rw [createFunction, bind_of_ok (attempt_apply _ c)]
  cases (inFunctions (Registry.create name count.toNat) c).result with
  | error e => rfl
  | ok a =>
    cases a with
    | zero => rfl
    | succ a => rfl

theorem entries_createFunction_of_failed {count : UInt32}
    (hr : (createFunction name count c).result = .ok r) (hfail : r.tellsFailure = true) :
    (createFunction name count c).state.functions.entries = c.functions.entries := by
  rw [state_createFunction]
  show (Registry.createAt (Native.stubAddress c.functions.tried) name count.toNat
    c.functions).state.entries = c.functions.entries
  cases hfind : c.functions.find? name with
  | some t => rw [(Registry.createAt_of_some hfind).2]
  | none =>
    by_cases harity : count.toNat ≤ Native.maxArity
    · cases hroom : c.functions.hasRoom c.functions.tried with
      | false => rw [(Registry.createAt_of_full hfind harity hroom).2]
      | true =>
        -- the place of a new trampoline is not 0, so its reply is its address
        have hcreate : (inFunctions (Registry.create name count.toNat) c).result =
            .ok (Native.stubAddress c.functions.tried) :=
          (Registry.createAt_of_none hfind harity hroom).1
        obtain ⟨k, hk⟩ : ∃ k, Native.stubAddress c.functions.tried = k + 1 :=
          Nat.exists_eq_add_one.2 (Nat.lt_of_lt_of_le (by decide) (Nat.le_add_right _ _))
        rw [createFunction, bind_of_ok (attempt_apply _ c), hcreate, hk] at hr
        cases hr
        cases hfail
    · rw [(Registry.createAt_of_many hfind harity).2]

theorem state_freeFunction_of_failed {act : Action Context Message}
    (hact : reply? (.freeFunction name) = some act) (hr : (act c).result = .ok r)
    (hfail : r.tellsFailure = true) : (act c).state = c := by
  cases hact
  obtain ⟨found, hfree, hpure, hstate⟩ := exists_of_bind hr
  have hfound : (Registry.free name c.functions).result = .ok found := hfree
  cases hpure
  rw [hstate]
  show { c with functions := (Registry.free name c.functions).state } = c
  cases hfind : c.functions.find? name with
  | none => rw [(Registry.free_of_none hfind).2]
  | some t =>
    rw [(Registry.free_of_some hfind).1] at hfound
    cases hfound
    cases hfail

end Registry

section Reach

def InOrder (c : Context) : Prop := c.memory.Ordered ∧ c.program.KeepsOrder

theorem shielded_inOrder : Shielded InOrder where
  scopes := fun _ _ h => h
  functions := fun _ _ h => h
  bridge := fun _ _ h => h
  code := fun _ h address args =>
    (h.2 address args).imp fun _ hchange c hc => ⟨hchange c.memory hc.1, hc.2⟩

def imposed (c : Context) (system : Circumstances) : Context :=
  { c with memory := system.impose c.memory }

/-- The states that an agent comes to: by requests, and by what its process, the system and its data
sessions do in between, which does not touch the table of allocations or the registry. Whether there is
room for a trampoline is not for the agent to say. -/
inductive Reached : Context → Prop
  | start (config : Config) (memory : Space) (program : Native.Program) (hasRoom : Nat → Bool)
    (hordered : memory.Ordered) (hprogram : program.KeepsOrder) (hnew : memory.allocations = []) :
    Reached { config, memory, program, functions := { hasRoom } }
  | handled {c : Context} (h : Reached c) (system : Circumstances) (hfresh : system.Fresh c.memory)
    (m : Message) : Reached (handle m (c.imposed system)).state
  | other {c : Context} (h : Reached c) (memory : Space) (bridge : Bridge)
    (hordered : memory.Ordered) (htable : memory.allocations = c.memory.allocations) :
    Reached { c with memory, bridge }

theorem inOrder_handle {c : Context} (hc : c.InOrder) {system : Circumstances}
    (hfresh : system.Fresh c.memory) (m : Message) :
    (handle m (c.imposed system)).state.InOrder := by
  have himposed : (c.imposed system).InOrder := hc
  cases hm : m.operation? with
  | none => exact shielded_inOrder.handle (.inl hm) _ himposed
  | some op =>
    obtain ⟨act, r, hact, hr, hserves⟩ := serves hm (c.imposed system)
    rw [state_handle_of_reply? hact hr]
    generalize (act (c.imposed system)).state = d at hserves ⊢
    cases hserves with
    | unchanged => exact himposed
    | done => exact ⟨ordered_run hc.1 hfresh op, hc.2⟩
    | failed => exact ⟨ordered_run hc.1 hfresh op, hc.2⟩

theorem Reached.inOrder {c : Context} (h : Reached c) : c.InOrder := by
  induction h with
  | start _ _ _ _ hordered hprogram => exact ⟨hordered, hprogram⟩
  | handled _ _ hfresh m ih => exact inOrder_handle ih hfresh m
  | other _ _ _ hordered _ ih => exact ⟨hordered, ih.2⟩

end Reach

/-- What a request that failed leaves of itself. -/
structure Residue (m : Message) (c d : Context) : Prop where
  functions : d.functions.entries = c.functions.entries
  table : ∀ a, d.memory.allocations.lookup a = c.memory.allocations.lookup a
  mapped : ∀ a, pageAt d.memory.areas a = none ↔ pageAt c.memory.areas a = none
  contents : d.memory.contents = c.memory.contents ∨
    ∃ op, m.operation? = some op ∧ op.Tears c.memory d.memory.contents
  pages : (∀ a, pageAt d.memory.areas a = pageAt c.memory.areas a) ∨
    ∃ op, m.operation? = some op ∧ op.Stalls c.memory d.memory.areas

theorem Residue.of_memory {m : Message} {c d : Context} (hmemory : d.memory = c.memory)
    (hentries : d.functions.entries = c.functions.entries) : Residue m c d :=
  ⟨hentries, fun _ => by rw [hmemory], fun _ => by rw [hmemory], .inl (by rw [hmemory]),
    .inl fun _ => by rw [hmemory]⟩

theorem Residue.of_operation {m : Message} {c : Context} {op : Operation}
    (hm : m.operation? = some op) (h : op.Residue c.memory (op.run c.memory).state) :
    Residue m c (c.after op) where
  functions := rfl
  table := h.table
  mapped := h.mapped_iff
  contents := h.contents.imp_right fun htears => ⟨op, hm, htears⟩
  pages := h.pages.imp_right fun hstalls => ⟨op, hm, hstalls⟩

theorem handle_of_status {α : Type} {m : Message} {act : Action Space α} {request : String}
    {fields : List (String × String)} (h : reply? m = some (status request fields (inMemory act)))
    (c : Context) :
    (handle m c).result =
        .ok ⟨some (.status (act c.memory).result.isOk), m ≠ .closeProcess⟩ ∧
      (handle m c).state = { c with memory := (act c.memory).state } := by
  obtain ⟨hresult, hstate⟩ := status_apply request fields (inMemory act) c
  exact ⟨handle_of_reply? h hresult, (state_handle_of_reply? h hresult).trans hstate⟩

theorem exists_of_handle {c : Context} {m r : Message} {keepOpen : Bool}
    (h : (handle m c).result = .ok ⟨some r, keepOpen⟩) :
    ∃ act, reply? m = some act ∧ (act c).result = .ok r ∧ (handle m c).state = (act c).state := by
  unfold handle at h ⊢
  cases hm : reply? m with
  | none =>
    rw [hm] at h
    cases h
  | some act =>
    rw [hm] at h
    obtain ⟨r', hr', hpure, hstate⟩ := exists_of_bind h
    cases hpure
    exact ⟨act, rfl, hr', hstate⟩

/-- Whatever an agent has done, a request that it answers as failed leaves its memory, the protection
of its pages, what is mapped, its table of allocations and its registry as they were, but for a torn
copy and for pages that got a protection before one refused it. Only of native calls this is not
said. -/
theorem residue_of_failed {c : Context} (hc : Reached c) {m r : Message} {keepOpen : Bool}
    (hm : m.kind ≠ .callFunction) (hr : (handle m c).result = .ok ⟨some r, keepOpen⟩)
    (hfail : r.tellsFailure = true) : Residue m c (handle m c).state := by
  obtain ⟨act, hact, hresult, hstate⟩ := exists_of_handle hr
  rw [hstate]
  cases hop : m.operation? with
  | some op =>
    obtain ⟨act', r', hact', hresult', hserves⟩ := serves hop c
    cases hact.symm.trans hact'
    cases hresult.symm.trans hresult'
    generalize (act c).state = d at hserves ⊢
    cases hserves with
    | unchanged => exact .of_memory rfl rfl
    | done hdone =>
      -- what is done is not answered as failed
      rw [hdone] at hfail
      cases hfail
    | failed e he => exact .of_operation hop (Operation.residue_of_error hc.inOrder.1 he)
  | none =>
    cases m with
    | createFunction name count =>
      cases hact
      have hentries := entries_createFunction_of_failed hresult hfail
      rw [state_createFunction] at hentries ⊢
      exact .of_memory rfl hentries
    | freeFunction name =>
      rw [state_freeFunction_of_failed hact hresult hfail]
      exact .of_memory rfl rfl
    | callFunction => exact (hm rfl).elim
    | closeProcess | isValid | allocateConsole | remoteCall =>
      cases hact
      exact .of_memory rfl rfl
    | status | statusWithValue | remoteCallResponse => cases hact
    | _ => cases hop

def besideFile : Context where
  config := .standard "/tmp"
  memory :=
    { areas := [⟨0x200000000000, 0x200000001000, ⟨true, false, false, false⟩, .anonymous⟩,
        ⟨0x200000001000, 0x200000002000, ⟨true, false, false, false⟩,
          .file "/data" false true⟩] }

def besideConstants : Context where
  config := .standard "/tmp"
  memory :=
    { areas := [⟨0x200000000000, 0x200000001000, ⟨true, true, false, false⟩, .anonymous⟩,
        ⟨0x200000001000, 0x200000002000, ⟨true, false, false, false⟩, .anonymous⟩]
      torn := fun _ => true }

theorem reached_besideFile : Reached besideFile := by
  have hordered : Within 0 Space.gate.start besideFile.memory.areas := by decide
  exact .start _ _ .empty _ hordered (fun _ _ => trivial) rfl

theorem reached_besideConstants : Reached besideConstants := by
  have hordered : Within 0 Space.gate.start besideConstants.memory.areas := by decide
  exact .start _ _ .empty _ hordered (fun _ _ => trivial) rfl

theorem handle_protectMemory_besideFile :
    let m := Message.protectMemory 0x200000000000 0x2000 Code.readWrite
    (handle m besideFile).result = .ok ⟨some (.status false), true⟩ ∧
      pageAt (handle m besideFile).state.memory.areas 0x200000000000 =
        some (⟨true, true, false, false⟩, .anonymous) := by
  intro m
  obtain ⟨hresult, hstate⟩ := handle_of_status (m := m) rfl besideFile
  have haddress : (0x200000000000 : UInt64).toNat = 0x200000000000 := rfl
  have hsize : (0x2000 : UInt32).toNat = 0x2000 := rfl
  rw [haddress, hsize] at hresult hstate
  rw [hresult, hstate]
  exact ⟨by cbv, by cbv⟩

theorem handle_writeMemory_besideConstants :
    let m := Message.writeMemory 0x200000000fff [1, 2]
    (handle m besideConstants).result = .ok ⟨some (.status false), true⟩ ∧
      (handle m besideConstants).state.memory.contents 0x200000000fff = 1 := by
  intro m
  obtain ⟨hresult, hstate⟩ := handle_of_status (m := m) rfl besideConstants
  have haddress : (0x200000000fff : UInt64).toNat = 0x200000000fff := rfl
  rw [haddress] at hresult hstate
  rw [hresult, hstate]
  exact ⟨by cbv, by cbv⟩

theorem residue_of_failed_besideFile :
    let m := Message.protectMemory 0x200000000000 0x2000 Code.readWrite
    Reached besideFile ∧ m.kind ≠ .callFunction ∧
      (handle m besideFile).result = .ok ⟨some (.status false), true⟩ ∧
      (Message.status false).tellsFailure = true ∧
      Residue m besideFile (handle m besideFile).state := by
  intro m
  have hr := handle_protectMemory_besideFile.1
  have hm : m.kind ≠ .callFunction := by decide
  exact ⟨reached_besideFile, hm, hr, rfl, residue_of_failed reached_besideFile hm hr rfl⟩

/-- A request that fails can change the protection of a page, and another one a byte. -/
theorem changed_by_failed :
    let protect := Message.protectMemory 0x200000000000 0x2000 Code.readWrite
    let write := Message.writeMemory 0x200000000fff [1, 2]
    (Reached besideFile ∧
      (handle protect besideFile).result = .ok ⟨some (.status false), true⟩ ∧
      pageAt (handle protect besideFile).state.memory.areas 0x200000000000 ≠
        pageAt besideFile.memory.areas 0x200000000000) ∧
    Reached besideConstants ∧
      (handle write besideConstants).result = .ok ⟨some (.status false), true⟩ ∧
      (handle write besideConstants).state.memory.contents 0x200000000fff ≠
        besideConstants.memory.contents 0x200000000fff := by
  intro protect write
  obtain ⟨hr, hpage⟩ := handle_protectMemory_besideFile
  obtain ⟨hr', hbyte⟩ := handle_writeMemory_besideConstants
  refine ⟨⟨reached_besideFile, hr, ?_⟩, reached_besideConstants, hr', ?_⟩
  · rw [hpage]
    decide
  · rw [hbyte]
    decide

end Context

end RemoteAgent
