import Mathlib.Data.String.Basic
import Mathlib.Logic.Function.Basic
import RemoteAgent.Proofs.Agent.Trampolines

/-! The registry is a finite map. Whatever is created and freed, in whatever order, the calls return
what a map from names to an address and an arity would have them return, and the registry shows
that map and nothing else. -/

namespace RemoteAgent

open RemoteAgent.Action Native

namespace Registry

structure Slot where
  address : Nat
  arity : Nat
  deriving DecidableEq

def Slot.trampoline (name : String) (s : Slot) : Trampoline RemoteFunction :=
  ⟨s.address, s.arity, ⟨name, s.arity⟩⟩

abbrev Roll : Type := String → Option Slot

/-- A call to the registry; one that creates has the place at which a trampoline would be made. -/
inductive Request where
  | create (fresh : Nat) (name : String) (arity : Nat)
  | free (name : String)

inductive Reply where
  | made (address : Nat)
  | freed (found : Bool)
  deriving DecidableEq

def Request.run : Request → Action Registry Reply
  | create fresh name arity => .made <$> Registry.createAt fresh name arity
  | free name => .freed <$> Registry.free name

def after (r : Registry) (qs : List Request) : Registry := qs.foldl (fun r q => (q.run r).state) r

def replies (r : Registry) : List Request → List (Except Error Reply)
  | [] => []
  | q :: qs => (q.run r).result :: replies (q.run r).state qs

namespace Roll

def answer (b : Roll) : Request → Except Error Reply
  | .create fresh name arity =>
    match b name with
    | some s => .ok (.made s.address)
    | none =>
      if maxArity < arity then .error (.resourceExhausted (.tooManyArguments arity maxArity))
      else .ok (.made fresh)
  | .free name => .ok (.freed (b name).isSome)

def next (b : Roll) : Request → Roll
  | .create fresh name arity =>
    if b name = none ∧ arity ≤ maxArity then Function.update b name (some ⟨fresh, arity⟩) else b
  | .free name => Function.update b name none

def after (b : Roll) (qs : List Request) : Roll := qs.foldl next b

def replies (b : Roll) : List Request → List (Except Error Reply)
  | [] => []
  | q :: qs => b.answer q :: (b.next q).replies qs

end Roll

/-- Where a trampoline has to be made, the place is a good one: not 0, and not in use. -/
def Request.Granted (r : Registry) : Request → Prop
  | create fresh name arity => r.find? name = none → arity ≤ maxArity → fresh ≠ 0 ∧ r.Unused fresh
  | free _ => True

def Granted (r : Registry) : List Request → Prop
  | [] => True
  | q :: qs => q.Granted r ∧ Granted (q.run r).state qs

structure Shows (r : Registry) (b : Roll) : Prop where
  find : ∀ name, r.find? name = (b name).map (Slot.trampoline name)
  addressOf : ∀ name, r.addressOf? name = (b name).map (·.address)
  arityOf : ∀ name, r.arityOf? name = (b name).map (·.arity)
  behind : ∀ name s, b name = some s → r.at? s.address = some (s.trampoline name)
  nonzero : ∀ name s, b name = some s → s.address ≠ 0
  distinct : ∀ name other s t, b name = some s → b other = some t → s.address = t.address →
    name = other
  rising : r.names.Pairwise (· < ·)
  mem_names : ∀ name, name ∈ r.names ↔ (b name).isSome
  length_names : r.names.length = r.size

section Names

variable {r : Registry}

theorem pairwise_names (h : (r.entries.map (·.1)).Nodup) : r.names.Pairwise (· < ·) := by
  have hle : r.names.Pairwise fun a b => decide (a ≤ b) = true := by
    apply List.pairwise_mergeSort
    · intro a b c hab hbc
      exact decide_eq_true (le_trans (of_decide_eq_true hab) (of_decide_eq_true hbc))
    · intro a b
      rw [Bool.or_eq_true, decide_eq_true_iff, decide_eq_true_iff]
      exact le_total a b
  have hne : r.names.Nodup := List.nodup_mergeSort.2 h
  exact (hle.and hne).imp fun hab => lt_of_le_of_ne (of_decide_eq_true hab.1) hab.2

theorem mem_names_iff {name : String} : name ∈ r.names ↔ (r.find? name).isSome := by
  have hperm := List.mergeSort_perm (r.entries.map (·.1)) fun a b => decide (a ≤ b)
  rw [names, hperm.mem_iff, find?, List.lookup_isSome_iff]
  simp only [List.mem_map, beq_iff_eq, eq_comm (a := name)]

theorem length_names : r.names.length = r.size := by
  rw [names, List.length_mergeSort, List.length_map, size]

end Names

structure Stores (r : Registry) (b : Roll) : Prop where
  proper : r.Proper
  keys : (r.entries.map (·.1)).Nodup
  nonzero : ∀ e ∈ r.entries, e.2.address ≠ 0
  room : ∀ n, r.hasRoom n = true
  find : ∀ name, r.find? name = (b name).map (Slot.trampoline name)

variable {r : Registry} {b : Roll}

theorem stores_empty : Stores {} fun _ => none :=
  ⟨proper_empty, List.nodup_nil, fun _ he => (List.not_mem_nil he).elim, fun _ => rfl, fun _ => rfl⟩

namespace Stores

theorem find_eq_none_iff (h : r.Stores b) (name : String) : r.find? name = none ↔ b name = none := by
  rw [h.find, Option.map_eq_none_iff]

theorem find_of_some (h : r.Stores b) {name : String} {s : Slot} (hs : b name = some s) :
    r.find? name = some (s.trampoline name) := by
  rw [h.find, hs]
  rfl

theorem shows (h : r.Stores b) : r.Shows b := by
  refine ⟨h.find, fun name => ?_, fun name => ?_, fun name s hs => ?_, fun name s hs => ?_,
    fun name other s t hs ht heq => ?_, pairwise_names h.keys, fun name => ?_, length_names⟩
  · rw [addressOf?, h.find, Option.map_map]
    rfl
  · rw [arityOf?, h.find, Option.map_map]
    rfl
  · exact h.proper.at?_address (h.find_of_some hs)
  · exact h.nonzero _ (mem_of_lookup (h.find_of_some hs))
  · have hone := h.proper.at?_address (h.find_of_some hs)
    have htwo := h.proper.at?_address (h.find_of_some ht)
    have haddress : (s.trampoline name).address = (t.trampoline other).address := heq
    rw [haddress, htwo, Option.some_inj] at hone
    have hhandler := congrArg (·.handler.name) hone
    exact hhandler.symm
  · rw [mem_names_iff, h.find, Option.isSome_map]

theorem result_run (h : r.Stores b) (q : Request) : (q.run r).result = b.answer q := by
  cases q with
  | create fresh name arity =>
    rw [Request.run, map_apply, Roll.answer]
    cases hb : b name with
    | some s => rw [(createAt_of_some (h.find_of_some hb)).1]; rfl
    | none =>
      have hnone := (h.find_eq_none_iff name).2 hb
      by_cases harity : arity ≤ maxArity
      · rw [(createAt_of_none hnone harity (h.room _)).1]
        exact (if_neg (Nat.not_lt.2 harity)).symm
      · rw [(createAt_of_many hnone harity).1]
        exact (if_pos (Nat.lt_of_not_le harity)).symm
  | free name =>
    rw [Request.run, map_apply, Roll.answer]
    cases hb : b name with
    | some s => rw [(free_of_some (h.find_of_some hb)).1]; rfl
    | none => rw [(free_of_none ((h.find_eq_none_iff name).2 hb)).1]; rfl

theorem state_run (h : r.Stores b) (q : Request) (hq : b.next q = b) : (q.run r).state = r := by
  cases q with
  | create fresh name arity =>
    rw [Request.run, map_apply]
    cases hb : b name with
    | some s => exact (createAt_of_some (h.find_of_some hb)).2
    | none =>
      have hnone := (h.find_eq_none_iff name).2 hb
      have harity : ¬ arity ≤ maxArity := by
        intro harity
        have hname := congrFun hq name
        rw [Roll.next, if_pos ⟨hb, harity⟩, Function.update_self, hb] at hname
        cases hname
      exact (createAt_of_many hnone harity).2
  | free name =>
    rw [Request.run, map_apply]
    have hname := congrFun hq name
    rw [Roll.next, Function.update_self] at hname
    exact (free_of_none ((h.find_eq_none_iff name).2 hname.symm)).2

theorem create (h : r.Stores b) {fresh : Nat} {name : String} {arity : Nat} (hname : b name = none)
    (harity : arity ≤ maxArity) (hfresh : fresh ≠ 0 ∧ r.Unused fresh) :
    (createAt fresh name arity r).state.Stores
      (Function.update b name (some ⟨fresh, arity⟩)) := by
  have hnone := (h.find_eq_none_iff name).2 hname
  have hproper := h.proper.createAt hfresh.2 name arity
  have hfind := fun other => find?_createAt fresh name arity other r
  have hkey : name ∉ r.entries.map (·.1) := by
    rintro hmem
    obtain ⟨e, he, rfl⟩ := List.mem_map.1 hmem
    have hsome := List.lookup_isSome_iff.2 ⟨e, he, beq_self_eq_true e.1⟩
    rw [find?] at hnone
    rw [hnone] at hsome
    cases hsome
  rw [(createAt_of_none hnone harity (h.room _)).2] at hproper hfind ⊢
  refine ⟨hproper, List.nodup_cons.2 ⟨hkey, h.keys⟩,
    List.forall_mem_cons.2 ⟨hfresh.1, h.nonzero⟩, h.room, fun other => ?_⟩
  rw [hfind]
  by_cases hother : other = name
  · subst hother
    rw [if_pos ⟨rfl, hnone, harity, h.room _⟩, Function.update_self]
    rfl
  · rw [if_neg fun hall => hother hall.1, Function.update_of_ne hother, h.find]

theorem free (h : r.Stores b) (name : String) :
    (Registry.free name r).state.Stores (Function.update b name none) := by
  have hproper := h.proper.free name
  have hsub : (Registry.free name r).state.entries.Sublist r.entries := by
    cases hfind : r.find? name with
    | some t =>
      rw [(free_of_some hfind).2]
      exact List.filter_sublist
    | none => rw [(free_of_none hfind).2]
  have hroom : ∀ n, (Registry.free name r).state.hasRoom n = true := by
    cases hfind : r.find? name with
    | some t =>
      rw [(free_of_some hfind).2]
      exact h.room
    | none =>
      rw [(free_of_none hfind).2]
      exact h.room
  refine ⟨hproper, h.keys.sublist (hsub.map _), fun e he => h.nonzero e (hsub.mem he),
    hroom, fun other => ?_⟩
  rw [find?_free]
  by_cases hother : other = name
  · rw [if_pos hother, hother, Function.update_self]
    rfl
  · rw [if_neg hother, Function.update_of_ne hother, h.find]

theorem step (h : r.Stores b) (q : Request) (hq : q.Granted r) :
    (q.run r).state.Stores (b.next q) := by
  by_cases hnext : b.next q = b
  · rw [h.state_run q hnext, hnext]
    exact h
  · cases q with
    | create fresh name arity =>
      rw [Roll.next] at hnext ⊢
      have hnew : b name = none ∧ arity ≤ maxArity := by
        by_contra hold
        exact hnext (if_neg hold)
      rw [if_pos hnew, Request.run, map_apply]
      exact h.create hnew.1 hnew.2 (hq ((h.find_eq_none_iff name).2 hnew.1) hnew.2)
    | free name =>
      rw [Roll.next, Request.run, map_apply]
      exact h.free name

theorem run (h : r.Stores b) (qs : List Request) (hqs : Granted r qs) :
    (r.after qs).Stores (b.after qs) ∧ r.replies qs = b.replies qs := by
  induction qs generalizing r b with
  | nil => exact ⟨h, rfl⟩
  | cons q qs ih =>
    obtain ⟨hstores, hreplies⟩ := ih (h.step q hqs.1) hqs.2
    refine ⟨hstores, ?_⟩
    rw [replies, Roll.replies, h.result_run, hreplies]

end Stores

/-- The registry refines a finite map: from the empty registry on, the calls return what the map
would return, the registry shows the map that the calls have made of the empty one, and the next
call does not touch the registry if it does not change that map. -/
theorem refines_roll (qs : List Request) (h : Granted {} qs) :
    replies {} qs = Roll.replies (fun _ => none) qs ∧
      (after {} qs).Shows (Roll.after (fun _ => none) qs) ∧
      ∀ q, (Roll.after (fun _ => none) qs).next q = Roll.after (fun _ => none) qs →
        (q.run (after {} qs)).state = after {} qs := by
  obtain ⟨hstores, hreplies⟩ := stores_empty.run qs h
  exact ⟨hreplies, hstores.shows, hstores.state_run⟩

def rollCourse : List Request :=
  [.create 0x2b0000000000 "on_load" 2, .create 0x2b0000000040 "on_draw" 0,
    .create 0 "on_load" 70, .create 0 "on_exit" 65, .free "on_load", .free "on_load",
    .create 0x2b0000000000 "on_load" 3]

theorem refines_roll_course : replies {} rollCourse =
      [.ok (.made 0x2b0000000000), .ok (.made 0x2b0000000040), .ok (.made 0x2b0000000000),
        .error (.resourceExhausted (.tooManyArguments 65 64)), .ok (.freed true),
        .ok (.freed false), .ok (.made 0x2b0000000000)] ∧
    (after {} rollCourse).arityOf? "on_load" = some 3 := by
  have hgranted : Granted {} rollCourse := by
    refine ⟨fun _ _ => ⟨by decide, rfl⟩,
      fun _ _ => ⟨by decide, rfl⟩, ?_, ?_, trivial, trivial, ?_, trivial⟩
    · intro hnone
      cases hnone
    · intro _ harity
      exact absurd harity (by decide)
    · exact fun _ _ => ⟨by decide, rfl⟩
  obtain ⟨hreplies, hshows, -⟩ := refines_roll rollCourse hgranted
  refine ⟨hreplies.trans (by decide), ?_⟩
  rw [hshows.arityOf]
  decide

theorem Numbered.granted (h : r.Numbered) (name : String) (arity : Nat) :
    let q := Request.create (stubAddress r.tried) name arity
    q.run r = (.made <$> Registry.create name arity : Action Registry Reply) r ∧ q.Granted r := by
  refine ⟨rfl, fun _ _ => ⟨?_, h.unused⟩⟩
  rw [stubAddress, stubBase]
  omega

end Registry

end RemoteAgent
