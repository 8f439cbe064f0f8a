import RemoteAgent.Proofs.Memory.Residue

/-! Copies through the engine. A range is read or written exactly if it passes the check and none of
its bytes traps. Reading gives the bytes as they are; writing puts the data in their place and leaves
all other bytes, and what was written is read back until something else is stored there. -/

namespace RemoteAgent.Memory

open RemoteAgent.Action

def laidOver (contents : Nat → UInt8) (address : Nat) (data : List UInt8) (a : Nat) : UInt8 :=
  if address ≤ a ∧ a < address + data.length then data.getD (a - address) 0 else contents a

theorem laidOver_of_outside {contents : Nat → UInt8} {address : Nat} {data : List UInt8} {a : Nat}
    (h : a < address ∨ address + data.length ≤ a) : laidOver contents address data a = contents a := by
  rw [laidOver, if_neg (by omega)]

namespace Space

def Permits (s : Space) (access : Access) (address length : Nat) : Prop :=
  ∀ a, address ≤ a → a < address + length → s.trap? access a = none

variable {s : Space} {access : Access} {address length : Nat} {data bytes : List UInt8}

theorem firstTrap?_eq_none_iff :
    s.firstTrap? access address length = none ↔ s.Permits access address length := by
  constructor
  · intro h
    induction length generalizing address with
    | zero => exact fun a hle hlt => by omega
    | succ n ih =>
      rw [firstTrap?] at h
      split at h
      · cases h
      · next hnone =>
        intro a hle hlt
        rcases Nat.eq_or_lt_of_le hle with rfl | hgt
        · exact hnone
        · exact ih h a hgt (by omega)
  · intro h
    cases htrap : s.firstTrap? access address length with
    | none => rfl
    | some t =>
      obtain ⟨signal, b⟩ := t
      obtain ⟨hle, hlt, hb, -⟩ := firstTrap?_eq_some htrap
      rw [h b hle hlt] at hb
      cases hb

theorem bytesAt_eq (s : Space) (address length : Nat) :
    s.bytesAt address length = (List.range length).map fun i => s.contents (address + i) := by
  induction length generalizing address with
  | zero => rfl
  | succ n ih =>
    rw [bytesAt, ih, List.range_succ_eq_map, List.map_cons, List.map_map]
    simp only [Nat.add_zero, Function.comp_def, Nat.succ_eq_add_one, Nat.add_comm, Nat.add_left_comm]

theorem permits_setOpenScopes (n : Nat) (s : Space) (access : Access) (address length : Nat) :
    (Fault.Scopes.setOpenScopes n s).Permits access address length ↔
      s.Permits access address length := Iff.rfl

theorem load_eq_ok_iff : (AddressSpace.load address length s).result = .ok bytes ↔
    s.Permits .read address length ∧
      bytes = (List.range length).map fun i => s.contents (address + i) := by
  obtain ⟨n, hresult, -⟩ := Fault.guarded_apply (load address length) s
  have hguarded : (AddressSpace.load address length s).result = _ := hresult
  rw [hguarded, ← permits_setOpenScopes _ s, ← firstTrap?_eq_none_iff, load, bind_of_ok (get_apply _)]
  cases firstTrap? _ .read address length with
  | none =>
    dsimp only [pure_apply]
    rw [bytesAt_eq]
    constructor
    · intro h
      cases h
      exact ⟨rfl, rfl⟩
    · rintro ⟨-, rfl⟩
      rfl
  | some t => exact iff_of_false nofun nofun

theorem store_eq_ok_iff : (AddressSpace.store address data s).result = .ok () ↔
    s.Permits .write address data.length := by
  obtain ⟨n, hresult, -⟩ := Fault.guarded_apply (store address data) s
  have hguarded : (AddressSpace.store address data s).result = _ := hresult
  rw [hguarded, ← permits_setOpenScopes _ s, ← firstTrap?_eq_none_iff]
  cases htrap : firstTrap? _ .write address data.length with
  | none =>
    rw [store_of_none htrap]
    exact iff_of_true rfl rfl
  | some t =>
    rw [store_of_some htrap]
    exact iff_of_false nofun nofun

theorem contents_of_store (h : (AddressSpace.store address data s).result = .ok ()) :
    (AddressSpace.store address data s).state.contents = laidOver s.contents address data := by
  obtain ⟨n, -, hstate⟩ := Fault.guarded_apply (store address data) s
  have hguarded : (AddressSpace.store address data s).state = _ := hstate
  have hnone := store_eq_ok_iff.1 h
  rw [← permits_setOpenScopes (Fault.Scopes.openScopes s + 1), ← firstTrap?_eq_none_iff] at hnone
  rw [hguarded, store_of_none hnone]
  funext a
  exact contents_put _ address data a

end Space

section Engine

variable {s : Space} {address length : Nat} {data bytes : List UInt8} {e : Error}

theorem read_eq_ok_iff : (Engine.read address length s).result = .ok bytes ↔
    (Engine.validate address length s).result = .ok () ∧ s.Permits .read address length ∧
      bytes = (List.range length).map fun i => s.contents (address + i) := by
  rw [result_validate]
  unfold Engine.read
  cases hcheck : (check s.look address length).2 with
  | error e =>
    rw [(validate_bind_of_error hcheck).1]
    exact iff_of_false (fun h => by cases h) fun h => by cases h.1
  | ok u =>
    rw [(validate_bind_of_ok hcheck).1]
    by_cases hempty : length = 0
    · subst hempty
      rw [if_pos rfl]
      constructor
      · intro h
        cases h
        exact ⟨rfl, fun a hle hlt => by omega, rfl⟩
      · rintro ⟨-, -, rfl⟩
        rfl
    · rw [if_neg hempty]
      dsimp only
      rw [(told_apply _ _ s).1, Space.load_eq_ok_iff]
      exact ⟨fun h => ⟨rfl, h⟩, fun h => h.2⟩

theorem write_of_validate_error (h : (Engine.validate address data.length s).result = .error e) :
    (Engine.write address data s).result = .error e ∧ (Engine.write address data s).state = s := by
  rw [result_validate] at h
  exact validate_bind_of_error h

theorem write_of_validate_ok (h : (Engine.validate address data.length s).result = .ok ()) :
    ((Engine.write address data s).result = .ok () ↔ s.Permits .write address data.length) ∧
      ((Engine.write address data s).result = .ok () →
        (Engine.write address data s).state.contents = laidOver s.contents address data) := by
  rw [result_validate] at h
  unfold Engine.write
  rw [(validate_bind_of_ok h).1, (validate_bind_of_ok h).2]
  by_cases hempty : data = []
  · subst hempty
    refine ⟨iff_of_true rfl fun a hle hlt => ?_, fun _ => ?_⟩
    · rw [List.length_nil] at hlt
      omega
    · funext a
      rw [laidOver_of_outside (by rw [List.length_nil]; omega)]
      rfl
  · rw [if_pos hempty, ← Space.store_eq_ok_iff]
    cases hstore : (AddressSpace.store address data s).result with
    | ok u =>
      rw [(bind_of_result hstore).1, (bind_of_result hstore).2]
      exact ⟨iff_of_true rfl rfl, fun _ => Space.contents_of_store hstore⟩
    | error e =>
      rw [(bind_of_failure hstore).1]
      exact ⟨iff_of_false nofun nofun, nofun⟩

theorem write_eq_ok_iff : (Engine.write address data s).result = .ok () ↔
    (Engine.validate address data.length s).result = .ok () ∧
      s.Permits .write address data.length := by
  cases hval : (Engine.validate address data.length s).result with
  | error e =>
    rw [(write_of_validate_error hval).1]
    exact iff_of_false (fun h => by cases h) fun h => by cases h.1
  | ok u => exact (write_of_validate_ok hval).1.trans ⟨fun h => ⟨rfl, h⟩, fun h => h.2⟩

theorem contents_of_write_ok (h : (Engine.write address data s).result = .ok ()) :
    (Engine.write address data s).state.contents = laidOver s.contents address data :=
  (write_of_validate_ok (write_eq_ok_iff.1 h).1).2 h

theorem contents_of_write_outside {a : Nat} (h : a < address ∨ address + data.length ≤ a) :
    (Engine.write address data s).state.contents a = s.contents a := by
  cases hr : (Engine.write address data s).result with
  | ok u => rw [contents_of_write_ok hr, laidOver_of_outside h]
  | error e =>
    rcases contents_of_write hr with hsame | ⟨-, htorn⟩
    · rw [hsame]
    · refine (htorn.bytes a).resolve_right fun hstored => ?_
      have := hstored.within
      omega

end Engine

section Later

inductive Deed.Stores (a : Nat) : Deed → Prop
  | write (address : Nat) (data : List UInt8) (r : Except Error Operation.Value)
    (h : address ≤ a ∧ a < address + data.length) : Stores a ⟨.write address data, r⟩
  | allocate (size : Nat) (allocationType protect : UInt32) (b n : Nat) (hn : Rounded size n)
    (h : Covers (b, n) a) :
    Stores a ⟨.allocate size allocationType protect, .ok (.address b)⟩

variable {s s₀ : Space} {past : List Deed} {a : Nat}

theorem contents_allocate (size : Nat) (allocationType protect : UInt32) (s : Space) :
    (Engine.allocate size allocationType protect s).state.contents = s.contents ∨
      ∃ n, Rounded size n ∧
        (Engine.allocate size allocationType protect s).result = .ok s.nextMap ∧
        (Engine.allocate size allocationType protect s).state.contents = fun a =>
          if s.nextMap ≤ a ∧ a < s.nextMap + n then 0 else s.contents a := by
  obtain ⟨hresult, hstate⟩ := engine_allocate_apply size allocationType protect s
  rw [hresult, hstate]
  rcases allocate_cases size allocationType protect s with ⟨e, -, hs⟩ | ⟨n, p, -, hn, -, hr, hs⟩
  · rw [hs]
    exact .inl rfl
  · rw [hr, hs]
    exact .inr ⟨n, hn, rfl, rfl⟩

theorem keeps_contents_free (address : Nat) :
    Keeps Space.contents (Engine.free address : Action Space Unit) := by
  intro s
  cases hcheck : (check s.look address 0).2 with
  | error e => rw [(free_of_check_eq_error hcheck).2]
  | ok u =>
    rw [(free_of_check_eq_ok hcheck).2]
    cases hlookup : s.allocations.lookup address with
    | none => rw [release_of_none hlookup]
    | some n =>
      cases hrefusal : s.unmapRefusal with
      | none => rw [release_of_some hlookup hrefusal]
      | some e => rw [release_of_refusal hlookup hrefusal]

theorem keeps_contents_protect (address size : Nat) (code : UInt32) :
    Keeps Space.contents (Engine.protect address size code : Action Space UInt32) := by
  intro s
  have hprotects := protects address size code s
  generalize (Engine.protect address size code s).state = t at hprotects ⊢
  generalize (Engine.protect address size code s).result = r at hprotects
  cases hprotects <;> rfl

theorem contents_run (op : Operation) (s : Space)
    (h : ¬ Deed.Stores a ⟨op, (op.run s).result⟩) : (op.run s).state.contents a = s.contents a := by
  cases op with
  | allocate size type protect =>
    rw [Operation.run, map_apply] at h ⊢
    rcases contents_allocate size type protect s with hsame | ⟨n, hn, hresult, hcontents⟩
    · exact congrFun hsame a
    · rw [hresult] at h
      have hout : ¬ (s.nextMap ≤ a ∧ a < s.nextMap + n) :=
        fun hin => h (.allocate _ _ _ _ n hn hin)
      exact (congrFun hcontents a).trans (if_neg hout)
  | free address =>
    rw [Operation.run, map_apply]
    exact congrFun (keeps_contents_free address s) a
  | protect address size code =>
    rw [Operation.run, map_apply]
    exact congrFun (keeps_contents_protect address size code s) a
  | read address length =>
    rw [Operation.run, map_apply]
    exact congrFun (keeps_read Space.contents (fun _ _ => rfl) address length s) a
  | write address data =>
    rw [Operation.run, map_apply]
    refine contents_of_write_outside (Classical.byContradiction fun hin => h ?_)
    exact .write address data _ (by omega)
  | query address =>
    rw [Operation.run, map_apply]
    exact congrFun (keeps_query Space.contents address s) a

theorem Run.contents_eq (h : Run s₀ past s) (hpast : ∀ d ∈ past, ¬ d.Stores a) :
    s.contents a = s₀.contents a := by
  induction h with
  | start => rfl
  | step _ c _ op ih =>
    rw [List.forall_mem_append, List.forall_mem_singleton] at hpast
    rw [contents_run op _ hpast.2]
    exact ih hpast.1

end Later

/-- What reading a range amounts to. -/
structure Reads (s : Space) (address length : Nat) : Prop where
  ok_iff : ∀ bytes, (Engine.read address length s).result = .ok bytes ↔
    (Engine.validate address length s).result = .ok () ∧ s.Permits .read address length ∧
      bytes = (List.range length).map fun i => s.contents (address + i)
  kept : (Engine.read address length s).state.contents = s.contents

/-- What writing data to an address amounts to, also for what is read after it. -/
structure Writes (s : Space) (address : Nat) (data : List UInt8) : Prop where
  ok_iff : (Engine.write address data s).result = .ok () ↔
    (Engine.validate address data.length s).result = .ok () ∧
      s.Permits .write address data.length
  stored : (Engine.write address data s).result = .ok () →
    (Engine.write address data s).state.contents = laidOver s.contents address data
  refused : ∀ e, (Engine.validate address data.length s).result = .error e →
    (Engine.write address data s).result = .error e ∧
      (Engine.write address data s).state.contents = s.contents
  outside : ∀ a, a < address ∨ address + data.length ≤ a →
    (Engine.write address data s).state.contents a = s.contents a
  readBack : (Engine.write address data s).result = .ok () →
    ∀ (past : List Deed) (t : Space), Run (Engine.write address data s).state past t →
    ∀ (c : Circumstances) (first length : Nat) (bytes : List UInt8),
      (Engine.read first length (c.impose t)).result = .ok bytes →
      ∀ i < length, (∀ d ∈ past, ¬ d.Stores (first + i)) →
        bytes[i]? = some (laidOver s.contents address data (first + i))

theorem reads (s : Space) (address length : Nat) : Reads s address length :=
  ⟨fun _ => read_eq_ok_iff, keeps_read Space.contents (fun _ _ => rfl) address length s⟩

theorem writes (s : Space) (address : Nat) (data : List UInt8) : Writes s address data where
  ok_iff := write_eq_ok_iff
  stored := contents_of_write_ok
  refused := by
    intro e he
    obtain ⟨hresult, hstate⟩ := write_of_validate_error he
    exact ⟨hresult, by rw [hstate]⟩
  outside := fun _ => contents_of_write_outside
  readBack := by
    intro hok past t hrun c first length bytes hread i hi hpast
    obtain ⟨-, -, rfl⟩ := read_eq_ok_iff.1 hread
    have hbyte : t.contents (first + i) = laidOver s.contents address data (first + i) := by
      rw [hrun.contents_eq hpast, contents_of_write_ok hok]
    rw [List.getElem?_map, List.getElem?_range hi, ← hbyte]
    rfl

end RemoteAgent.Memory
