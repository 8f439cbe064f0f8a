import Mathlib.Data.List.Nodup
import RemoteAgent.Agent.Context
import RemoteAgent.Proofs.Action.Endings
import RemoteAgent.Proofs.Lookup

/-! The registry as a table of names. Making a trampoline enters its name, freeing takes it out,
every other name stays as it is; and what is called at the address of a name's trampoline is that
trampoline. -/

namespace RemoteAgent

open RemoteAgent.Action Native

namespace Registry

variable {r : Registry} {fresh arity : Nat} {name other : String} {t : Trampoline RemoteFunction}

def Unused (r : Registry) (address : Nat) : Prop := r.at? address = none

/-- The trampolines have an address each, and each one has the name and the arity that it was made
for. -/
structure Proper (r : Registry) : Prop where
  addresses : (r.entries.map (·.2.address)).Nodup
  made : ∀ e ∈ r.entries, e.2.handler = ⟨e.1, e.2.arity⟩

theorem proper_empty : ({} : Registry).Proper :=
  ⟨List.nodup_nil, fun _ h => (List.not_mem_nil h).elim⟩

theorem at?_eq_none_iff {address : Nat} :
    r.at? address = none ↔ ∀ e ∈ r.entries, e.2.address ≠ address := by
  rw [at?, Option.map_eq_none_iff, List.find?_eq_none]
  exact forall₂_congr fun e _ => not_congr decide_eq_true_iff

section Create

theorem createAt_of_some (h : r.find? name = some t) :
    (createAt fresh name arity r).result = .ok t.address ∧
      (createAt fresh name arity r).state = r := by
  rw [createAt, bind_of_ok (get_apply r), h]
  exact ⟨rfl, rfl⟩

theorem createAt_of_none (h : r.find? name = none) (harity : arity ≤ maxArity)
    (hroom : r.hasRoom r.tried = true) :
    (createAt fresh name arity r).result = .ok fresh ∧ (createAt fresh name arity r).state =
      { r with entries := (name, ⟨fresh, arity, ⟨name, arity⟩⟩) :: r.entries
               tried := r.tried + 1 } := by
  rw [createAt, bind_of_ok (get_apply r), h]
  dsimp only
  rw [Descriptor.ofArity, dif_pos harity, hroom]
  exact ⟨rfl, rfl⟩

theorem createAt_of_full (h : r.find? name = none) (harity : arity ≤ maxArity)
    (hroom : r.hasRoom r.tried = false) :
    (createAt fresh name arity r).result = .error (.resourceExhausted .noClosure) ∧
      (createAt fresh name arity r).state = { r with tried := r.tried + 1 } := by
  rw [createAt, bind_of_ok (get_apply r), h]
  dsimp only
  rw [Descriptor.ofArity, dif_pos harity, hroom]
  exact ⟨rfl, rfl⟩

theorem createAt_of_many (h : r.find? name = none) (harity : ¬ arity ≤ maxArity) :
    (createAt fresh name arity r).result =
        .error (.resourceExhausted (.tooManyArguments arity maxArity)) ∧
      (createAt fresh name arity r).state = r := by
  rw [createAt, bind_of_ok (get_apply r), h]
  dsimp only
  rw [Descriptor.ofArity, dif_neg harity]
  exact ⟨rfl, rfl⟩

def refusal? (r : Registry) (name : String) (arity : Nat) : Option ResourceFault :=
  if (r.find? name).isSome then none
  else if maxArity < arity then some (.tooManyArguments arity maxArity)
  else if r.hasRoom r.tried then none
  else some .noClosure

theorem result_createAt (fresh : Nat) (name : String) (arity : Nat) (r : Registry) :
    match r.refusal? name arity with
    | some f => (createAt fresh name arity r).result = .error (.resourceExhausted f)
    | none => ∃ a, (createAt fresh name arity r).result = .ok a := by
  cases h : r.find? name with
  | some t =>
    rw [refusal?, h]
    exact ⟨_, (createAt_of_some h).1⟩
  | none =>
    rcases Nat.lt_or_ge maxArity arity with hmany | harity
    · rw [refusal?, h, if_neg (by decide), if_pos hmany]
      exact (createAt_of_many h (Nat.not_le.2 hmany)).1
    · rw [refusal?, h, if_neg (by decide), if_neg (Nat.not_lt.2 harity)]
      cases hroom : r.hasRoom r.tried with
      | false => exact (createAt_of_full h harity hroom).1
      | true => exact ⟨_, (createAt_of_none h harity hroom).1⟩

theorem find?_createAt (fresh : Nat) (name : String) (arity : Nat) (other : String) (r : Registry) :
    (createAt fresh name arity r).state.find? other =
      if other = name ∧ r.find? name = none ∧ arity ≤ maxArity ∧ r.hasRoom r.tried = true then
        some ⟨fresh, arity, ⟨name, arity⟩⟩
      else r.find? other := by
  cases h : r.find? name with
  | some t =>
    rw [(createAt_of_some h).2, if_neg]
    rintro ⟨-, hnone, -⟩
    cases hnone
  | none =>
    by_cases harity : arity ≤ maxArity
    · cases hroom : r.hasRoom r.tried with
      | false =>
        rw [(createAt_of_full h harity hroom).2, if_neg]
        · rfl
        · rintro ⟨-, -, -, hsome⟩
          cases hsome
      | true =>
        rw [(createAt_of_none h harity hroom).2, find?, lookup_cons_ite]
        by_cases hother : other = name
        · rw [if_pos hother, if_pos ⟨hother, rfl, harity, rfl⟩]
        · rw [if_neg hother, if_neg fun hall => hother hall.1]
          rfl
    · rw [(createAt_of_many h harity).2, if_neg fun hall => harity hall.2.2.1]

theorem Proper.createAt (h : r.Proper) (hfresh : r.Unused fresh) (name : String) (arity : Nat) :
    (createAt fresh name arity r).state.Proper := by
  cases hfind : r.find? name with
  | some t =>
    rw [(createAt_of_some hfind).2]
    exact h
  | none =>
    by_cases harity : arity ≤ maxArity
    · cases hroom : r.hasRoom r.tried with
      | false =>
        rw [(createAt_of_full hfind harity hroom).2]
        exact ⟨h.addresses, h.made⟩
      | true =>
        rw [(createAt_of_none hfind harity hroom).2]
        have hnew := at?_eq_none_iff.1 hfresh
        refine ⟨List.nodup_cons.2 ⟨fun hmem => ?_, h.addresses⟩, List.forall_mem_cons.2 ⟨rfl, h.made⟩⟩
        obtain ⟨e, he, heq⟩ := List.mem_map.1 hmem
        exact hnew e he heq
    · rw [(createAt_of_many hfind harity).2]
      exact h

end Create

section Free

theorem free_of_some (h : r.find? name = some t) : (free name r).result = .ok true ∧
    (free name r).state = { r with entries := r.entries.filter (·.1 ≠ name) } := by
  rw [free, bind_of_ok (get_apply r), h]
  exact ⟨rfl, rfl⟩

theorem free_of_none (h : r.find? name = none) :
    (free name r).result = .ok false ∧ (free name r).state = r := by
  rw [free, bind_of_ok (get_apply r), h]
  exact ⟨rfl, rfl⟩

theorem find?_free (name other : String) (r : Registry) :
    (free name r).state.find? other = if other = name then none else r.find? other := by
  cases h : r.find? name with
  | some t =>
    rw [(free_of_some h).2]
    exact lookup_filter_ne name other r.entries
  | none =>
    rw [(free_of_none h).2]
    split
    · next hother => rw [hother, h]
    · rfl

theorem Proper.free (h : r.Proper) (name : String) : (free name r).state.Proper := by
  cases hfind : r.find? name with
  | some t =>
    rw [(free_of_some hfind).2]
    have hsub : (r.entries.filter (·.1 ≠ name)).Sublist r.entries := List.filter_sublist
    exact ⟨h.addresses.sublist (hsub.map _), fun e he => h.made e (hsub.mem he)⟩
  | none =>
    rw [(free_of_none hfind).2]
    exact h

end Free

def Numbered (r : Registry) : Prop :=
  ∀ e ∈ r.entries, ∃ n < r.tried, e.2.address = stubAddress n

theorem Numbered.unused (h : r.Numbered) : r.Unused (stubAddress r.tried) := by
  refine at?_eq_none_iff.2 fun e he heq => ?_
  obtain ⟨n, hn, hplace⟩ := h e he
  have := stubAddress_inj (hplace.symm.trans heq)
  omega

theorem Numbered.create (h : r.Numbered) (name : String) (arity : Nat) :
    (create name arity r).state.Numbered := by
  have hcreate : (Registry.create name arity r).state =
      (Registry.createAt (stubAddress r.tried) name arity r).state := rfl
  rw [hcreate]
  cases hfind : r.find? name with
  | some t =>
    rw [(createAt_of_some hfind).2]
    exact h
  | none =>
    by_cases harity : arity ≤ maxArity
    · have hlater : ∀ e ∈ r.entries, ∃ n < r.tried + 1, e.2.address = stubAddress n := by
        intro e he
        obtain ⟨n, hn, hplace⟩ := h e he
        exact ⟨n, Nat.lt_succ_of_lt hn, hplace⟩
      cases hroom : r.hasRoom r.tried with
      | false =>
        rw [(createAt_of_full hfind harity hroom).2]
        exact hlater
      | true =>
        rw [(createAt_of_none hfind harity hroom).2]
        exact List.forall_mem_cons.2 ⟨⟨r.tried, Nat.lt_succ_self _, rfl⟩, hlater⟩
    · rw [(createAt_of_many hfind harity).2]
      exact h

theorem Numbered.free (h : r.Numbered) (name : String) : (free name r).state.Numbered := by
  cases hfind : r.find? name with
  | some t =>
    rw [(free_of_some hfind).2]
    exact fun e he => h e (List.mem_of_mem_filter he)
  | none =>
    rw [(free_of_none hfind).2]
    exact h

theorem Proper.at?_address (h : r.Proper) (ht : r.find? name = some t) :
    r.at? t.address = some t := by
  have hmem : (name, t) ∈ r.entries := mem_of_lookup ht
  cases hat : r.entries.find? (·.2.address = t.address) with
  | none =>
    have hnone := List.find?_eq_none.1 hat (name, t) hmem
    exact absurd (decide_eq_true rfl) hnone
  | some e =>
    have haddress : e.2.address = t.address := by simpa using List.find?_some hat
    have heq : e = (name, t) :=
      List.inj_on_of_nodup_map h.addresses (List.mem_of_find?_eq_some hat) hmem haddress
    rw [at?, hat, heq]
    rfl

theorem Proper.handler_eq (h : r.Proper) (ht : r.find? name = some t) :
    t.handler = ⟨name, t.arity⟩ := h.made (name, t) (mem_of_lookup ht)

end Registry

namespace Context

variable {c : Context} {name : String} {t : Trampoline Registry.RemoteFunction} {args : List UInt64}

/-- Native code that calls the trampoline of a name calls that name over the bridge, with as many
arguments as the trampoline has. -/
theorem jump_of_find? (h : c.functions.Proper) (ht : c.functions.find? name = some t)
    (hargs : t.arity ≤ args.length) :
    (jump t.address args : Action Context UInt64) c =
      inBridge (Bridge.forward name (args.take t.arity)) c := by
  have htrampoline : Machine.trampoline? c t.address = some (enter t) := by
    simp only [Machine.trampoline?]
    rw [h.at?_address ht]
    rfl
  rw [jump, bind_of_ok (get_apply c), htrampoline]
  dsimp only
  rw [enter, h.handler_eq ht, received_eq_take hargs]
  rfl

end Context

end RemoteAgent
