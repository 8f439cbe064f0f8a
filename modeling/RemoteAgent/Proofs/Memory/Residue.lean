import RemoteAgent.Proofs.Lookup
import RemoteAgent.Proofs.Memory.Allocation

/-! What an operation of the engine leaves of itself when it fails: nothing, but that the system has
gone over the pages of a range up to the first that refused the protection, or has copied some bytes
of a range in which one trapped. -/

namespace RemoteAgent.Memory

open RemoteAgent.Action

structure Stops (p : Protection) (lo hi : Nat) (areas areas' : List Area) (reached : Nat) : Prop where
  within : lo ≤ reached ∧ reached < hi
  refuses : Refuses p areas reached
  passes : Passes p lo reached areas areas'

section Copy

structure Stored (s : Space) (address : Nat) (data : List UInt8) (contents : Nat → UInt8)
    (a : Nat) : Prop where
  within : address ≤ a ∧ a < address + data.length
  permits : s.trap? .write a = none
  byte : contents a = data.getD (a - address) 0

structure Torn (s : Space) (address : Nat) (data : List UInt8) (contents : Nat → UInt8) : Prop where
  traps : ∃ i < data.length, s.trap? .write (address + i) ≠ none
  bytes : ∀ a, contents a = s.contents a ∨ Stored s address data contents a

variable {s : Space} {address : Nat} {data : List UInt8} {e : Error}

theorem torn_of_store (he : (Space.store address data s).result = .error e) :
    Torn s address data (Space.store address data s).state.contents := by
  cases htrap : s.firstTrap? .write address data.length with
  | none =>
    rw [Space.store_of_none htrap] at he
    cases he
  | some t =>
    obtain ⟨signal, b⟩ := t
    obtain ⟨hle, hlt, hb, -⟩ := Space.firstTrap?_eq_some htrap
    have hadd : address + (b - address) = b := by omega
    rw [Space.store_of_some htrap]
    refine ⟨⟨b - address, by omega, ?_⟩, fun a => ?_⟩
    · rw [hadd, hb]
      exact Option.some_ne_none signal
    · by_cases hstored : s.torn a = true ∧ s.trap? .write a = none
      · have hbyte : (s.tear address data).contents a =
            if address ≤ a ∧ a < address + data.length then data.getD (a - address) 0
            else s.contents a := by
          rw [Space.contents_tear, if_pos hstored, Space.overlay_apply]
        by_cases hin : address ≤ a ∧ a < address + data.length
        · exact .inr ⟨hin, hstored.2, by rw [hbyte, if_pos hin]⟩
        · exact .inl (by rw [hbyte, if_neg hin])
      · exact .inl (if_neg hstored)

theorem contents_of_write (he : (Engine.write address data s).result = .error e) :
    (Engine.write address data s).state.contents = s.contents ∨
      (check s.look address data.length).2 = .ok () ∧
        Torn s address data (Engine.write address data s).state.contents := by
  unfold Engine.write at he ⊢
  cases hcheck : (check s.look address data.length).2 with
  | error e' =>
    rw [(validate_bind_of_error hcheck).2]
    exact .inl rfl
  | ok u =>
    rw [(validate_bind_of_ok hcheck).1] at he
    rw [(validate_bind_of_ok hcheck).2]
    by_cases hempty : data = []
    · subst hempty
      cases he
    · rw [if_pos hempty] at he ⊢
      obtain ⟨hstore, hstate⟩ := failure_of_bind (fun _ => ends_tell _) he
      obtain ⟨n, hresult, hafter⟩ := Fault.guarded_apply (Space.store address data) s
      have htorn := torn_of_store (hresult.symm.trans hstore)
      rw [hstate]
      refine .inr ⟨rfl, ?_⟩
      show Torn s address data (Fault.guarded (Space.store address data) s).state.contents
      rw [hafter]
      -- open scopes make no difference to what traps
      exact ⟨htorn.traps, fun a => (htorn.bytes a).imp_right fun h => ⟨h.within, h.permits, h.byte⟩⟩

end Copy

section Operation

inductive Operation.Tears (s : Space) (contents : Nat → UInt8) : Operation → Prop
  | write (address : Nat) (data : List UInt8)
    (hcheck : (check s.look address data.length).2 = .ok ())
    (htorn : Torn s address data contents) : Tears s contents (.write address data)

inductive Operation.Stalls (s : Space) (areas : List Area) : Operation → Prop
  | protect (address size : Nat) (code : UInt32) (p : Protection) (lo hi reached : Nat)
    (hcheck : (check s.look address size).2 = .ok ())
    (hp : Protection.ofPlainCode? code = some p)
    (hpages : Space.pagesOf? address size = some (lo, hi))
    (hstops : Stops p lo hi s.areas areas reached) : Stalls s areas (.protect address size code)

structure Operation.Residue (op : Operation) (s t : Space) : Prop where
  table : ∀ a, t.allocations.lookup a = s.allocations.lookup a
  contents : t.contents = s.contents ∨ op.Tears s t.contents
  pages : (∀ a, pageAt t.areas a = pageAt s.areas a) ∨ op.Stalls s t.areas

namespace Operation

variable {op : Operation} {s t : Space} {e : Error}

theorem Residue.refl (op : Operation) (s : Space) : op.Residue s s :=
  ⟨fun _ => rfl, .inl rfl, .inl fun _ => rfl⟩

theorem Residue.mapped_iff (h : op.Residue s t) (a : Nat) :
    pageAt t.areas a = none ↔ pageAt s.areas a = none := by
  rcases h.pages with hsame | ⟨_, _, _, p, lo, hi, reached, _, _, _, hstops⟩
  · rw [hsame]
  · exact hstops.passes.mapped_iff a

theorem residue_free {a : Nat} (he : (Engine.free a s).result = .error e) :
    (Operation.free a).Residue s (Engine.free a s).state := by
  cases hcheck : (check s.look a 0).2 with
  | error e' =>
    rw [(free_of_check_eq_error hcheck).2]
    exact .refl _ s
  | ok u =>
    obtain ⟨hresult, hstate⟩ := free_of_check_eq_ok hcheck
    rw [hresult] at he
    rw [hstate]
    cases hlookup : s.allocations.lookup a with
    | none =>
      rw [release_of_none hlookup]
      exact .refl _ s
    | some n =>
      cases hrefusal : s.unmapRefusal with
      | none =>
        rw [release_of_some hlookup hrefusal] at he
        cases he
      | some refusal =>
        rw [release_of_refusal hlookup hrefusal]
        refine ⟨fun b => ?_, .inl rfl, .inl fun _ => rfl⟩
        rw [lookup_cons_ite, lookup_filter_ne]
        split
        · next heq => rw [heq, hlookup]
        · rfl

theorem residue_protect (hs : s.Ordered) {address size : Nat} {code : UInt32}
    (he : (Engine.protect address size code s).result = .error e) :
    (Operation.protect address size code).Residue s (Engine.protect address size code s).state := by
  cases hcheck : (check s.look address size).2 with
  | error e' =>
    unfold Engine.protect
    rw [(validate_bind_of_error hcheck).2]
    exact .refl _ s
  | ok u =>
    have hprotects := protects address size code s
    rw [he] at hprotects
    generalize (Engine.protect address size code s).state = t at hprotects
    cases hprotects with
    | refused => exact .refl _ s
    | stopped _ p lo hi hp hpages cause hstop =>
      obtain ⟨reached, hbounds, hpasses, hrefuses⟩ := exists_passes p hi lo hs
      obtain ⟨hless, hrefuses⟩ := hrefuses cause hstop
      have hstops : Stops p lo hi s.areas (coalesce (protectAreas p hi lo s.areas).1) reached :=
        ⟨⟨by omega, hless⟩, hrefuses, hpasses.coalesce hs.protectAreas⟩
      exact ⟨fun _ => rfl, .inl rfl,
        .inr (.protect address size code p lo hi reached hcheck hp hpages hstops)⟩

theorem residue_read (address length : Nat) :
    (Operation.read address length).Residue s (Engine.read address length s).state := by
  have hview := keeps_read (fun s => (s.allocations, s.contents, s.areas)) (fun _ _ => rfl)
    address length s
  simp only [Prod.mk.injEq] at hview
  obtain ⟨htable, hcontents, hareas⟩ := hview
  exact ⟨fun a => by rw [htable], .inl hcontents, .inl fun a => by rw [hareas]⟩

theorem residue_write {address : Nat} {data : List UInt8}
    (he : (Engine.write address data s).result = .error e) :
    (Operation.write address data).Residue s (Engine.write address data s).state := by
  obtain ⟨hareas, htable⟩ := Prod.mk.inj (keeps_write address data s)
  refine ⟨fun a => by rw [htable], ?_, .inl fun a => by rw [hareas]⟩
  rcases contents_of_write he with hsame | ⟨hcheck, htorn⟩
  · exact .inl hsame
  · exact .inr (.write address data hcheck htorn)

theorem eq_error_of_map {α β : Type} {f : α → β} {r : Except Error α} (h : r.map f = .error e) :
    r = .error e := by
  cases r with
  | ok a => cases h
  | error e' =>
    cases h
    rfl

/-- A failed operation leaves the table, the contents and the pages as they were, but for a torn
copy and for pages that got a protection before one refused it. -/
theorem residue_of_error (hs : s.Ordered) (he : (op.run s).result = .error e) :
    op.Residue s (op.run s).state := by
  cases op with
  | allocate size type protect =>
    rw [run, map_apply] at he ⊢
    have hallocates := allocates size type protect s
    rw [eq_error_of_map he] at hallocates
    dsimp only
    generalize (Engine.allocate size type protect s).state = t at hallocates ⊢
    cases hallocates
    exact .refl _ s
  | free a =>
    rw [run, map_apply] at he ⊢
    exact residue_free (eq_error_of_map he)
  | protect address size code =>
    rw [run, map_apply] at he ⊢
    exact residue_protect hs (eq_error_of_map he)
  | read address length =>
    rw [run, map_apply]
    exact residue_read address length
  | write address data =>
    rw [run, map_apply] at he ⊢
    exact residue_write (eq_error_of_map he)
  | query a =>
    have hview : (Engine.query a s).state = s := keeps_query id a s
    rw [run, map_apply]
    dsimp only
    rw [hview]
    exact .refl _ s

end Operation

end Operation

section Order

variable {s : Space}

theorem ordered_of_layout {t : Space} (hs : s.Ordered) (h : t.layout = s.layout) : t.Ordered := by
  rw [Space.Ordered, (Prod.mk.inj h).1]
  exact hs

theorem ordered_allocate (hs : s.Ordered) (hbelow : s.mapLimit ≤ Space.gate.start)
    (hfree : ∀ a, s.nextMap ≤ a → a < s.mapLimit → pageAt s.areas a = none) (size : Nat)
    (allocationType protect : UInt32) :
    (Engine.allocate size allocationType protect s).state.Ordered := by
  have hallocates := allocates size allocationType protect s
  generalize (Engine.allocate size allocationType protect s).state = t at hallocates ⊢
  generalize (Engine.allocate size allocationType protect s).result = r at hallocates
  cases hallocates with
  | refused => exact hs
  | mapped n p _ hpos hn hroom hareas =>
    have hlt : 0 < n := Nat.lt_of_lt_of_le hpos hn.2.1
    rw [Space.Ordered, hareas]
    exact hs.insertArea (Nat.zero_le _) (by dsimp only; omega) (Nat.le_trans hroom hbelow)
      fun a hle hin => hfree a hle (Nat.lt_of_lt_of_le hin hroom)

theorem ordered_free (hs : s.Ordered) (a : Nat) : (Engine.free a s).state.Ordered := by
  cases hcheck : (check s.look a 0).2 with
  | error e =>
    rw [(free_of_check_eq_error hcheck).2]
    exact hs
  | ok u =>
    rw [(free_of_check_eq_ok hcheck).2]
    cases hlookup : s.allocations.lookup a with
    | none =>
      rw [release_of_none hlookup]
      exact hs
    | some n =>
      cases hrefusal : s.unmapRefusal with
      | none =>
        rw [release_of_some hlookup hrefusal]
        exact hs.unmapAreas (Nat.le_add_right a n)
      | some e =>
        rw [release_of_refusal hlookup hrefusal]
        exact hs

theorem ordered_protect (hs : s.Ordered) (address size : Nat) (code : UInt32) :
    (Engine.protect address size code s).state.Ordered := by
  have hprotects := protects address size code s
  generalize (Engine.protect address size code s).state = t at hprotects ⊢
  generalize (Engine.protect address size code s).result = r at hprotects
  cases hprotects with
  | refused => exact hs
  | passed _ p lo hi => exact hs.protectAreas.coalesce
  | stopped _ p lo hi => exact hs.protectAreas.coalesce

theorem ordered_run (hs : s.Ordered) {c : Circumstances} (hc : c.Fresh s) (op : Operation) :
    (op.run (c.impose s)).state.Ordered := by
  have himposed : (c.impose s).Ordered := hs
  cases op with
  | allocate size type protect =>
    rw [Operation.run, map_apply]
    exact ordered_allocate himposed hc.below hc.free size type protect
  | free a =>
    rw [Operation.run, map_apply]
    exact ordered_free himposed a
  | protect address size code =>
    rw [Operation.run, map_apply]
    exact ordered_protect himposed address size code
  | read address length =>
    rw [Operation.run, map_apply]
    exact ordered_of_layout himposed (keeps_read Space.layout (fun _ _ => rfl) address length _)
  | write address data =>
    rw [Operation.run, map_apply]
    exact ordered_of_layout himposed (keeps_write address data _)
  | query a =>
    rw [Operation.run, map_apply]
    exact ordered_of_layout himposed (keeps_query Space.layout a _)

end Order

end RemoteAgent.Memory
