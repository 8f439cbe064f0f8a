import Mathlib.Data.List.Nodup
import Mathlib.Tactic.ByContra
import RemoteAgent.Proofs.Action.Endings
import RemoteAgent.Socket.Network

/-! How a network goes on. Connections are made, used and cut off, and one that was shut down stays
so. What stands at a path and who waits at a listener lasts, whatever those do who hold a connection
or make one. -/

namespace RemoteAgent.Socket

open RemoteAgent.Action

namespace Connection

theorem shut_release {c : Connection} (side : Side) (h : c.shut = true) :
    (c.release side).shut = true := by
  rw [release]
  split
  · rfl
  · cases side with
    | client => exact h
    | server => exact h

theorem shut_share {c : Connection} (side : Side) (h : c.shut = true) :
    (c.share side).shut = true := by
  cases side with
  | client => exact h
  | server => exact h

theorem shut_adjust (side : Side) (f : End → End) (c : Connection) :
    (c.adjust side f).shut = c.shut := by
  cases side with
  | client => rfl
  | server => rfl

theorem shut_read (side : Side) (max : Nat) (c : Connection) :
    (c.read side max).2.shut = c.shut := by
  rw [read]
  split
  · exact shut_adjust side _ c
  · split
    · exact shut_adjust side _ c
    · split
      · rfl
      · rfl

theorem shut_probe (side : Side) (c : Connection) : (c.probe side).2.shut = c.shut := by
  rw [probe]
  split
  · rfl
  · split
    · exact shut_adjust side _ c
    · rfl

theorem shut_write (side : Side) (data : List UInt8) (c : Connection) :
    (c.write side data).2.shut = c.shut := by
  rw [write]
  split
  · rfl
  · split
    · rfl
    · exact shut_adjust side.other _ c

end Connection

namespace Network

def isShut (n : Network) (x : Nat) : Bool := ((n.connections[x]?).map (·.shut)).getD false

/-- No connection goes away, and one that was shut down stays so. -/
structure Onward (n n' : Network) : Prop where
  length : n'.connections.length = n.connections.length
  shut : ∀ x, n.isShut x = true → n'.isShut x = true

variable {n n' n'' : Network} {f : Connection → Connection}

theorem Onward.trans (h : Onward n n') (h' : Onward n' n'') : Onward n n'' :=
  ⟨h'.length.trans h.length, fun x hx => h'.shut x (h.shut x hx)⟩

theorem onward_of_connections (h : n'.connections = n.connections) : Onward n n' := by
  refine ⟨congrArg List.length h, fun x hx => ?_⟩
  rw [isShut, h]
  exact hx

theorem isShut_adjust (x : Nat) (hx : x < n.connections.length) (hf : ∀ c, (f c).shut = true) :
    (adjust x f n).state.isShut x = true := by
  show (((n.connections.modify x f)[x]?).map _).getD false = true
  rw [List.getElem?_modify_eq, List.getElem?_eq_getElem hx]
  exact hf _

theorem onward_adjust (x : Nat) (hf : ∀ c, c.shut = true → (f c).shut = true) :
    Onward n (adjust x f n).state := by
  refine ⟨List.length_modify .., fun y hy => ?_⟩
  show (((n.connections.modify x f)[y]?).map _).getD false = true
  by_cases hxy : x = y
  · subst hxy
    rw [isShut] at hy
    rw [List.getElem?_modify_eq]
    cases hc : n.connections[x]? with
    | none =>
      rw [hc] at hy
      cases hy
    | some c =>
      rw [hc] at hy
      exact hf c hy
  · rw [List.getElem?_modify_ne f _ hxy]
    exact hy

theorem onward_remove {path : String} (h : n.remove path = .ok n') : Onward n n' := by
  refine onward_of_connections ?_
  rw [remove] at h
  split at h
  · cases h
  · cases h
    rfl
  · cases h

def queueAt (n : Network) (l : Nat) : List Nat := ((n.listeners[l]?).map (·.queue)).getD []

def listens (n : Network) (l : Nat) : Bool := ((n.listeners[l]?).map (·.isOpen)).getD false

theorem lt_of_listens {l : Nat} (h : n.listens l = true) : l < n.listeners.length := by
  by_contra hge
  rw [listens, List.getElem?_eq_none (Nat.le_of_not_lt hge)] at h
  cases h

structure Queued (n : Network) (l : Nat) : Prop where
  known : ∀ x ∈ n.queueAt l, x < n.connections.length
  once : (n.queueAt l).Nodup

theorem queued_of_nil {l : Nat} (h : n.queueAt l = []) : n.Queued l := by
  refine ⟨fun x hx => ?_, ?_⟩
  · rw [h] at hx
    cases hx
  · rw [h]
    exact List.nodup_nil

/-- Connections come, but none goes away, and one that was shut down stays so. Who comes to wait at a
listener is new. -/
structure Grows (n n' : Network) : Prop where
  length : n.connections.length ≤ n'.connections.length
  shut : ∀ x, n.isShut x = true → n'.isShut x = true
  queued : ∀ l, n.Queued l → n'.Queued l
  fresh : ∀ l, ∀ x ∈ n'.queueAt l, x ∈ n.queueAt l ∨ n.connections.length ≤ x

/-- What stands at a path stays there, who listens goes on listening, and where somebody waits
somebody goes on waiting. -/
structure Lasts (n n' : Network) : Prop where
  directories : n'.directories = n.directories
  entries : n'.entries = n.entries
  listens : ∀ l, n'.listens l = n.listens l
  queue : ∀ l, n.queueAt l ≠ [] → n'.queueAt l ≠ []

theorem Grows.refl (n : Network) : n.Grows n :=
  ⟨Nat.le_refl _, fun _ h => h, fun _ h => h, fun _ _ h => .inl h⟩

theorem Grows.trans (h : n.Grows n') (h' : n'.Grows n'') : n.Grows n'' := by
  refine ⟨Nat.le_trans h.length h'.length, fun x hx => h'.shut x (h.shut x hx),
    fun l hl => h'.queued l (h.queued l hl), fun l x hx => ?_⟩
  rcases h'.fresh l x hx with hx | hx
  · exact h.fresh l x hx
  · exact .inr (Nat.le_trans h.length hx)

theorem Lasts.refl (n : Network) : n.Lasts n := ⟨rfl, rfl, fun _ => rfl, fun _ h => h⟩

theorem queueAt_congr (h : n'.listeners = n.listeners) (l : Nat) : n'.queueAt l = n.queueAt l := by
  rw [queueAt, h, queueAt]

theorem Onward.grows_of_sublist (h : n.Onward n')
    (hl : ∀ l, (n'.queueAt l).Sublist (n.queueAt l)) : n.Grows n' := by
  refine ⟨Nat.le_of_eq h.length.symm, h.shut, fun l hq => ⟨fun x hx => ?_, hq.once.sublist (hl l)⟩,
    fun l x hx => .inl ((hl l).mem hx)⟩
  rw [h.length]
  exact hq.known x ((hl l).mem hx)

theorem Onward.grows (h : n.Onward n') (hl : n'.listeners = n.listeners) : n.Grows n' :=
  h.grows_of_sublist fun l => queueAt_congr hl l ▸ List.Sublist.refl _

theorem grows_adjust (x : Nat) (hf : ∀ c, c.shut = true → (f c).shut = true) :
    n.Grows (adjust x f n).state := (onward_adjust x hf).grows rfl

theorem lasts_adjust (x : Nat) (f : Connection → Connection) (n : Network) :
    n.Lasts (adjust x f n).state := ⟨rfl, rfl, fun _ => rfl, fun _ h => h⟩

theorem onConnection_apply {α : Type} (x : Nat) (op : Connection → α × Connection) (absent : α)
    (n : Network) : onConnection x op absent n =
      ⟨.ok (((n.connections[x]?).map fun c => (op c).1).getD absent),
        (adjust x (fun c => (op c).2) n).state, []⟩ := by
  have hmodify := List.modify_eq_set_getElem? (fun c => (op c).2) x n.connections
  rw [onConnection, bind_of_ok (get_apply n)]
  show _ = (⟨_, { n with connections := n.connections.modify x fun c => (op c).2 }, _⟩ :
    Outcome Network α)
  rw [hmodify]
  cases hc : n.connections[x]? with
  | none => rfl
  | some c => rfl

theorem grows_onConnection {α : Type} (x : Nat) {op : Connection → α × Connection} (absent : α)
    (hop : ∀ c, (op c).2.shut = c.shut) : n.Grows (onConnection x op absent n).state := by
  rw [onConnection_apply]
  exact grows_adjust x fun c hc => (hop c).trans hc

theorem lasts_onConnection {α : Type} (x : Nat) (op : Connection → α × Connection) (absent : α)
    (n : Network) : n.Lasts (onConnection x op absent n).state := by
  rw [onConnection_apply]
  exact lasts_adjust x _ n

def joined (n : Network) (l : Nat) : Network :=
  { n with
    connections := n.connections ++ [{}]
    listeners := n.listeners.modify l fun k => { k with queue := k.queue ++ [n.connections.length] } }

theorem connectTo_of_listens {l : Nat} (h : n.listens l = true) :
    connectTo l n = ⟨.ok n.connections.length, n.joined l, []⟩ := by
  have hopen : ((n.listeners[l]?).map (·.isOpen)).getD false = true := h
  rw [connectTo, bind_of_ok (get_apply n), if_pos hopen]
  rfl

theorem connectTo_of_deaf {l : Nat} (h : n.listens l = false) :
    (connectTo l n).state = n := by
  have hdeaf : ¬ ((n.listeners[l]?).map (·.isOpen)).getD false = true :=
    (Bool.eq_false_iff.1 h)
  rw [connectTo, bind_of_ok (get_apply n), if_neg hdeaf]
  rfl

theorem queueAt_joined (n : Network) (l m : Nat) : (n.joined l).queueAt m =
    if l = m ∧ m < n.listeners.length then n.queueAt m ++ [n.connections.length]
    else n.queueAt m := by
  rw [queueAt, queueAt]
  show (((n.listeners.modify l _)[m]?).map _).getD [] = _
  rw [List.getElem?_modify]
  by_cases hm : m < n.listeners.length
  · rw [List.getElem?_eq_getElem hm]
    by_cases hl : l = m
    · rw [if_pos ⟨hl, hm⟩]
      simp [hl]
    · rw [if_neg fun h => hl h.1]
      simp [hl]
  · rw [if_neg fun h => hm h.2, List.getElem?_eq_none (Nat.le_of_not_lt hm)]
    rfl

theorem isShut_joined (n : Network) (l x : Nat) : (n.joined l).isShut x = n.isShut x := by
  rw [isShut, isShut]
  show (((n.connections ++ [({} : Connection)])[x]?).map _).getD false = _
  rcases Nat.lt_trichotomy x n.connections.length with hx | rfl | hx
  · rw [List.getElem?_append_left hx]
  · rw [List.getElem?_concat_length, List.getElem?_eq_none (Nat.le_refl _)]
    rfl
  · rw [List.getElem?_eq_none (Nat.le_of_lt hx), List.getElem?_eq_none]
    rw [List.length_append]
    exact hx

theorem grows_joined (n : Network) (l : Nat) : n.Grows (n.joined l) := by
  have hlength : (n.joined l).connections.length = n.connections.length + 1 :=
    List.length_append ..
  refine ⟨hlength ▸ Nat.le_succ _, fun x hx => (isShut_joined n l x).trans hx,
    fun m hm => ⟨fun x hx => ?_, ?_⟩, fun m x hx => ?_⟩
  · rw [queueAt_joined] at hx
    rw [hlength]
    split at hx
    · rcases List.mem_append.1 hx with hx | hx
      · exact Nat.lt_succ_of_lt (hm.known x hx)
      · exact Nat.lt_succ_of_le (Nat.le_of_eq (List.mem_singleton.1 hx))
    · exact Nat.lt_succ_of_lt (hm.known x hx)
  · rw [queueAt_joined]
    split
    · refine List.nodup_append.2 ⟨hm.once, List.nodup_singleton _, fun x hx y hy => ?_⟩
      rw [List.mem_singleton.1 hy]
      exact Nat.ne_of_lt (hm.known x hx)
    · exact hm.once
  · rw [queueAt_joined] at hx
    split at hx
    · rcases List.mem_append.1 hx with hx | hx
      · exact .inl hx
      · exact .inr (Nat.le_of_eq (List.mem_singleton.1 hx).symm)
    · exact .inl hx

theorem lasts_joined (n : Network) (l : Nat) : n.Lasts (n.joined l) := by
  refine ⟨rfl, rfl, fun m => ?_, fun m hm => ?_⟩
  · rw [listens, listens]
    show (((n.listeners.modify l _)[m]?).map _).getD false = _
    rw [List.getElem?_modify]
    cases n.listeners[m]? with
    | none => rfl
    | some k => by_cases hl : l = m <;> simp [hl]
  · rw [queueAt_joined]
    split
    · exact List.append_ne_nil_of_right_ne_nil _ (List.cons_ne_nil _ _)
    · exact hm

theorem queueAt_joined_ne_nil {l : Nat} (h : n.listens l = true) : (n.joined l).queueAt l ≠ [] := by
  rw [queueAt_joined, if_pos ⟨rfl, lt_of_listens h⟩]
  exact List.append_ne_nil_of_right_ne_nil _ (List.cons_ne_nil _ _)

theorem connectTo_state (l : Nat) (n : Network) :
    (connectTo l n).state = n ∨ (connectTo l n).state = n.joined l := by
  cases hl : n.listens l with
  | true => exact .inr (by rw [connectTo_of_listens hl])
  | false => exact .inl (connectTo_of_deaf hl)

theorem checkPath_apply (path : String) : ∃ r, ∀ n, checkPath path n = ⟨r, n, []⟩ := by
  rw [checkPath]
  split
  · exact ⟨_, fun _ => rfl⟩
  · split
    · exact ⟨_, fun _ => rfl⟩
    · exact ⟨_, fun _ => rfl⟩

theorem connect_state (path : String) (n : Network) :
    (connect path n).state = n ∨ ∃ l, (connect path n).state = n.joined l := by
  obtain ⟨r, hcheck⟩ := checkPath_apply path
  rw [connect]
  cases r with
  | error e => exact .inl (by rw [bind_of_error (hcheck n)])
  | ok u =>
    rw [bind_of_ok (hcheck n), bind_of_ok (get_apply n)]
    cases n.entryAt path with
    | none => exact .inl rfl
    | some entry =>
      cases entry with
      | socket l =>
        rcases connectTo_state l n with hstate | hstate
        · exact .inl hstate
        · exact .inr ⟨l, hstate⟩
      | _ => exact .inl rfl

def served (n : Network) (l : Nat) : Network :=
  { n with listeners := n.listeners.modify l fun k => { k with queue := k.queue.tail } }

theorem accept_apply (l : Nat) (n : Network) : accept l n =
    match n.queueAt l with
    | [] => ⟨.ok none, n, []⟩
    | x :: _ => ⟨.ok (some x), n.served l, []⟩ := by
  rw [accept, bind_of_ok (get_apply n), queueAt]
  cases hl : n.listeners[l]? with
  | none => rfl
  | some k =>
    obtain ⟨isOpen, queue⟩ := k
    cases queue with
    | nil => rfl
    | cons x queue => rfl

theorem queueAt_served (n : Network) (l m : Nat) :
    (n.served l).queueAt m = if l = m then (n.queueAt m).tail else n.queueAt m := by
  rw [queueAt, queueAt]
  show (((n.listeners.modify l _)[m]?).map _).getD [] = _
  rw [List.getElem?_modify]
  cases n.listeners[m]? with
  | none => by_cases hl : l = m <;> simp [hl]
  | some k => by_cases hl : l = m <;> simp [hl]

theorem grows_served (n : Network) (l : Nat) : n.Grows (n.served l) := by
  refine (onward_of_connections rfl : n.Onward (n.served l)).grows_of_sublist fun m => ?_
  rw [queueAt_served]
  split
  · exact List.tail_sublist _
  · exact List.Sublist.refl _

theorem grows_remove {path : String} (h : n.remove path = .ok n') : n.Grows n' := by
  refine (onward_remove h).grows ?_
  rw [remove] at h
  split at h
  · cases h
  · cases h
    rfl
  · cases h

theorem queueAt_closeListener (l : Nat) (n : Network) (m : Nat) :
    (closeListener l n).state.queueAt m = if l = m then [] else n.queueAt m := by
  rw [queueAt, queueAt]
  show (((n.listeners.set l _)[m]?).map _).getD [] = _
  rw [List.getElem?_set]
  by_cases hl : l = m
  · subst hl
    by_cases hlt : l < n.listeners.length <;> simp [hlt]
  · simp [hl]

theorem grows_closeListener (l : Nat) (n : Network) : n.Grows (closeListener l n).state := by
  have hcut : ∀ (xs : List Nat) (m : Network), m.Onward { m with
      connections := xs.foldl (fun cs x => cs.modify x (·.abandon .server true)) m.connections } := by
    intro xs
    induction xs with
    | nil => exact fun m => onward_of_connections rfl
    | cons x xs ih =>
      intro m
      exact (onward_adjust x fun _ _ => rfl).trans (ih (adjust x (·.abandon .server true) m).state)
  have honward : n.Onward (closeListener l n).state := by
    obtain ⟨hlength, hshut⟩ := hcut (n.queueAt l) n
    exact ⟨hlength, hshut⟩
  refine honward.grows_of_sublist fun m => ?_
  rw [queueAt_closeListener]
  split
  · exact List.nil_sublist _
  · exact List.Sublist.refl _

end Network

inductive Deed where
  | connect (path : String)
  | connectTo (listener : Nat)
  | read (connection : Nat) (side : Side) (max : Nat)
  | write (connection : Nat) (side : Side) (data : List UInt8)
  | probe (connection : Nat) (side : Side)
  | shutdown (connection : Nat)
  | share (connection : Nat) (side : Side)
  | release (connection : Nat) (side : Side)

namespace Deed

def onNetwork (n : Network) : Deed → Network
  | connect path => (Network.connect path n).state
  | connectTo listener => (Network.connectTo listener n).state
  | read x side max => (Network.read x side max n).state
  | write x side data => (Network.write x side data n).state
  | probe x side => (Network.probe x side n).state
  | shutdown x => (Network.adjust x Connection.shutdown n).state
  | share x side => (Network.adjust x (·.share side) n).state
  | release x side => (Network.adjust x (·.release side) n).state

theorem grows (d : Deed) (n : Network) : n.Grows (d.onNetwork n) := by
  cases d with
  | connect path =>
    rcases Network.connect_state path n with hstate | ⟨l, hstate⟩
    · rw [onNetwork, hstate]
      exact Network.Grows.refl n
    · rw [onNetwork, hstate]
      exact Network.grows_joined n l
  | connectTo l =>
    rcases Network.connectTo_state l n with hstate | hstate
    · rw [onNetwork, hstate]
      exact Network.Grows.refl n
    · rw [onNetwork, hstate]
      exact Network.grows_joined n l
  | read x side max => exact Network.grows_onConnection x _ fun c => c.shut_read side max
  | write x side data => exact Network.grows_onConnection x _ fun c => c.shut_write side data
  | probe x side => exact Network.grows_onConnection x _ fun c => c.shut_probe side
  | shutdown x => exact Network.grows_adjust x fun _ _ => rfl
  | share x side => exact Network.grows_adjust x fun _ hc => Connection.shut_share side hc
  | release x side => exact Network.grows_adjust x fun _ hc => Connection.shut_release side hc

theorem lasts (d : Deed) (n : Network) : n.Lasts (d.onNetwork n) := by
  cases d with
  | connect path =>
    rcases Network.connect_state path n with hstate | ⟨l, hstate⟩
    · rw [onNetwork, hstate]
      exact Network.Lasts.refl n
    · rw [onNetwork, hstate]
      exact Network.lasts_joined n l
  | connectTo l =>
    rcases Network.connectTo_state l n with hstate | hstate
    · rw [onNetwork, hstate]
      exact Network.Lasts.refl n
    · rw [onNetwork, hstate]
      exact Network.lasts_joined n l
  | read x side max => exact Network.lasts_onConnection x _ _ n
  | write x side data => exact Network.lasts_onConnection x _ _ n
  | probe x side => exact Network.lasts_onConnection x _ _ n
  | shutdown x => exact Network.lasts_adjust x _ n
  | share x side => exact Network.lasts_adjust x _ n
  | release x side => exact Network.lasts_adjust x _ n

theorem length_listeners (deed : Deed) (n : Network) :
    (deed.onNetwork n).listeners.length = n.listeners.length := by
  cases deed with
  | connect path =>
    rw [onNetwork]
    rcases Network.connect_state path n with hstate | ⟨l, hstate⟩
    · rw [hstate]
    · rw [hstate]
      exact List.length_modify ..
  | connectTo l =>
    rw [onNetwork]
    rcases Network.connectTo_state l n with hstate | hstate
    · rw [hstate]
    · rw [hstate]
      exact List.length_modify ..
  | read x side max =>
    rw [onNetwork, Network.read, Network.onConnection_apply]
    rfl
  | write x side data =>
    rw [onNetwork, Network.write, Network.onConnection_apply]
    rfl
  | probe x side =>
    rw [onNetwork, Network.probe, Network.onConnection_apply]
    rfl
  | _ => rfl

end Deed

end RemoteAgent.Socket
