import Mathlib.Data.List.Pairwise
import RemoteAgent.Proofs.Memory.Operations

/-! Runs of the engine. Wherever the system maps, whatever it refuses and however pages are
protected in between, the table of allocations holds those that were made and not given back, and
nothing else is ever unmapped. -/

namespace RemoteAgent.Memory

open RemoteAgent.Action

/-- What the system decides before each operation: where it maps and up to where it has room there,
whether files can be opened, how it refuses to unmap, and which bytes of a copy are stored when it
traps. -/
structure Circumstances where
  nextMap : Nat
  mapLimit : Nat
  canOpen : Bool := true
  unmapRefusal : Option OsError := none
  torn : Nat → Bool := fun _ => false

namespace Circumstances

def impose (c : Circumstances) (s : Space) : Space :=
  { s with nextMap := c.nextMap, mapLimit := c.mapLimit, canOpen := c.canOpen
           unmapRefusal := c.unmapRefusal, torn := c.torn }

structure Fresh (c : Circumstances) (s : Space) : Prop where
  below : c.mapLimit ≤ Space.gate.start
  free : ∀ a, c.nextMap ≤ a → a < c.mapLimit → pageAt s.areas a = none

end Circumstances

inductive Operation where
  | allocate (size : Nat) (allocationType protect : UInt32)
  | free (address : Nat)
  | protect (address size : Nat) (code : UInt32)
  | read (address length : Nat)
  | write (address : Nat) (data : List UInt8)
  | query (address : Nat)

inductive Operation.Value where
  | done
  | address (a : Nat)
  | code (c : UInt32)
  | bytes (data : List UInt8)

def Operation.run : Operation → Action Space Operation.Value
  | allocate size allocationType code => .address <$> Engine.allocate size allocationType code
  | free address => (fun _ => .done) <$> Engine.free address
  | protect address size code => .code <$> Engine.protect address size code
  | read address length => .bytes <$> Engine.read address length
  | write address data => (fun _ => .done) <$> Engine.write address data
  | query address => .code <$> Engine.query address

structure Deed where
  operation : Operation
  result : Except Error Operation.Value

inductive Run (s₀ : Space) : List Deed → Space → Prop
  | start : Run s₀ [] s₀
  | step {past : List Deed} {s : Space} (h : Run s₀ past s) (c : Circumstances) (hc : c.Fresh s)
    (op : Operation) :
    Run s₀ (past ++ [⟨op, (op.run (c.impose s)).result⟩]) (op.run (c.impose s)).state

def Live (past : List Deed) (a n : Nat) : Prop :=
  ∃ pre size allocationType protect post,
    past = pre ++ ⟨.allocate size allocationType protect, .ok (.address a)⟩ :: post ∧
      Rounded size n ∧ ⟨.free a, .ok .done⟩ ∉ post

def Covers (x : Nat × Nat) (b : Nat) : Prop := x.1 ≤ b ∧ b < x.1 + x.2

def Apart (x y : Nat × Nat) : Prop := ∀ b, ¬ (Covers x b ∧ Covers y b)

structure Kept (past : List Deed) (s : Space) : Prop where
  ordered : s.Ordered
  table : ∀ a n, (a, n) ∈ s.allocations ↔ Live past a n
  apart : s.allocations.Pairwise Apart
  mapped : ∀ x ∈ s.allocations, ∀ b, Covers x b → pageAt s.areas b ≠ none
  nonempty : ∀ x ∈ s.allocations, 0 < x.2

section Live

variable {past : List Deed} {a n : Nat} {d : Deed}

theorem live_concat_iff : Live (past ++ [d]) a n ↔
    (Live past a n ∧ d ≠ ⟨.free a, .ok .done⟩) ∨
      ∃ size allocationType protect,
        d = ⟨.allocate size allocationType protect, .ok (.address a)⟩ ∧ Rounded size n := by
  constructor
  · rintro ⟨pre, size, t, p, post, heq, hn, hfree⟩
    rcases List.eq_nil_or_concat post with rfl | ⟨rest, last, rfl⟩
    · obtain ⟨-, hlast⟩ := List.append_inj' heq rfl
      exact .inr ⟨size, t, p, List.singleton_inj.1 hlast, hn⟩
    · rw [List.concat_eq_append, ← List.cons_append, ← List.append_assoc] at heq
      obtain ⟨hpast, hlast⟩ := List.append_inj' heq rfl
      cases List.singleton_inj.1 hlast
      rw [List.concat_eq_append, List.mem_append, List.mem_singleton, not_or] at hfree
      exact .inl ⟨⟨pre, size, t, p, rest, hpast, hn, hfree.1⟩, fun h => hfree.2 h.symm⟩
  · rintro (⟨⟨pre, size, t, p, post, rfl, hn, hfree⟩, hd⟩ | ⟨size, t, p, rfl, hn⟩)
    · refine ⟨pre, size, t, p, post ++ [d], by simp, hn, ?_⟩
      rw [List.mem_append, List.mem_singleton, not_or]
      exact ⟨hfree, fun h => hd h.symm⟩
    · exact ⟨past, size, t, p, [], rfl, hn, List.not_mem_nil⟩

theorem not_live_of_freed {pre post : List Deed}
    (h : past = pre ++ ⟨.free a, .ok .done⟩ :: post)
    (hpost : ∀ d ∈ post, d.result ≠ .ok (.address a)) : ¬ Live past a n := by
  rintro ⟨pre', size, t, p, post', heq, -, hfree⟩
  rcases List.append_eq_append_iff.1 (h.symm.trans heq) with ⟨w, -, hw⟩ | ⟨w, -, hw⟩
  · cases w with
    | nil => cases (List.cons.inj hw).1
    | cons f w =>
      obtain ⟨-, rfl⟩ := List.cons.inj hw
      exact hpost _ (List.mem_append_right w List.mem_cons_self) rfl
  · cases w with
    | nil => cases (List.cons.inj hw).1
    | cons m w =>
      obtain ⟨-, rfl⟩ := List.cons.inj hw
      exact hfree (List.mem_append_right w List.mem_cons_self)

end Live

section Table

variable {l : List (Nat × Nat)} {a n : Nat}

theorem Apart.symm {x y : Nat × Nat} (h : Apart x y) : Apart y x := fun b hb => h b hb.symm

instance : Std.Symm Apart := ⟨fun _ _ h => h.symm⟩

theorem Apart.ne {x y : Nat × Nat} (h : Apart x y) (hx : 0 < x.2) (hy : 0 < y.2) : x.1 ≠ y.1 := by
  intro heq
  apply h x.1
  unfold Covers
  omega

theorem exists_cut (hapart : l.Pairwise Apart) (hpos : ∀ x ∈ l, 0 < x.2) (h : (a, n) ∈ l) :
    ∃ l₁ l₂, l = l₁ ++ (a, n) :: l₂ ∧ (∀ x ∈ l₁, x.1 ≠ a) ∧ ∀ x ∈ l₂, x.1 ≠ a := by
  obtain ⟨l₁, l₂, rfl⟩ := List.append_of_mem h
  obtain ⟨-, hright, hcross⟩ := List.pairwise_append.1 hapart
  refine ⟨l₁, l₂, rfl, fun x hx => ?_, fun x hx => ?_⟩
  · exact (hcross x hx _ List.mem_cons_self).ne (hpos x (List.mem_append_left _ hx)) (hpos _ h)
  · have hx' : x ∈ l₁ ++ (a, n) :: l₂ := List.mem_append_right _ (List.mem_cons_of_mem _ hx)
    exact ((List.pairwise_cons.1 hright).1 x hx).symm.ne (hpos x hx') (hpos _ h)

theorem lookup_eq_some_iff (hapart : l.Pairwise Apart) (hpos : ∀ x ∈ l, 0 < x.2) :
    l.lookup a = some n ↔ (a, n) ∈ l := by
  rw [List.lookup_eq_some_iff]
  constructor
  · rintro ⟨l₁, l₂, rfl, -⟩
    exact List.mem_append_right _ List.mem_cons_self
  · intro h
    obtain ⟨l₁, l₂, rfl, hleft, -⟩ := exists_cut hapart hpos h
    exact ⟨l₁, l₂, rfl, fun x hx => by simpa using (hleft x hx).symm⟩

theorem perm_reinserted (hapart : l.Pairwise Apart) (hpos : ∀ x ∈ l, 0 < x.2) (h : (a, n) ∈ l) :
    ((a, n) :: l.filter (·.1 ≠ a)).Perm l := by
  obtain ⟨l₁, l₂, rfl, hleft, hright⟩ := exists_cut hapart hpos h
  have hl : ∀ {m : List (Nat × Nat)}, (∀ x ∈ m, x.1 ≠ a) → m.filter (·.1 ≠ a) = m :=
    fun hm => List.filter_eq_self.2 fun x hx => by simpa using hm x hx
  rw [List.filter_append, List.filter_cons_of_neg (by simp), hl hleft, hl hright]
  exact List.perm_middle.symm

end Table

def Space.Granted (s : Space) : Prop := s.canOpen = true ∧ s.unmapRefusal = none

def Space.Freeable (s : Space) (a : Nat) : Prop :=
  s.Granted ∧ (∃ n, (a, n) ∈ s.allocations) ∧ s.Touchable a

inductive Frees (s : Space) (a : Nat) : Except Error Unit → Space → Prop
  | released (n : Nat) (t : Space) (hfree : s.Freeable a) (hmem : (a, n) ∈ s.allocations)
    (hareas : t.areas = unmapAreas a (a + n) s.areas)
    (htable : t.allocations = s.allocations.filter (·.1 ≠ a)) : Frees s a (.ok ()) t
  | refused (e : Error) (t : Space) (hfree : ¬ s.Freeable a) (hareas : t.areas = s.areas)
    (htable : t.allocations.Perm s.allocations) : Frees s a (.error e) t

inductive Steps (s : Space) : Deed → Space → Prop
  | allocated (size : Nat) (type protect : UInt32) (n : Nat) (p : Protection) (t : Space)
    (hpos : 0 < size) (hn : Rounded size n) (hroom : s.nextMap + n ≤ s.mapLimit)
    (hareas : t.areas = insertArea ⟨s.nextMap, s.nextMap + n, p, .anonymous⟩ s.areas)
    (htable : t.allocations = (s.nextMap, n) :: s.allocations) :
    Steps s ⟨.allocate size type protect, .ok (.address s.nextMap)⟩ t
  | released (a n : Nat) (t : Space) (hmem : (a, n) ∈ s.allocations)
    (hareas : t.areas = unmapAreas a (a + n) s.areas)
    (htable : t.allocations = s.allocations.filter (·.1 ≠ a)) : Steps s ⟨.free a, .ok .done⟩ t
  | refused (op : Operation) (e : Error) (t : Space) (hareas : t.areas = s.areas)
    (htable : t.allocations.Perm s.allocations) : Steps s ⟨op, .error e⟩ t
  | other (op : Operation) (r : Except Error Operation.Value) (t : Space)
    (hmade : ∀ size type protect, op ≠ .allocate size type protect) (hfreed : ∀ a, op ≠ .free a)
    (hordered : t.Ordered) (htable : t.allocations = s.allocations)
    (hmapped : ∀ b, pageAt t.areas b = none ↔ pageAt s.areas b = none) : Steps s ⟨op, r⟩ t

theorem Steps.of_layout {s t : Space} {op : Operation} (r : Except Error Operation.Value)
    (hmade : ∀ size type protect, op ≠ .allocate size type protect) (hfreed : ∀ a, op ≠ .free a)
    (hordered : s.Ordered) (hlayout : t.layout = s.layout) : Steps s ⟨op, r⟩ t := by
  obtain ⟨hareas, htable⟩ := Prod.mk.inj hlayout
  refine .other op r t hmade hfreed ?_ htable fun b => by rw [hareas]
  rw [Space.Ordered, hareas]
  exact hordered

theorem steps_protect {s t : Space} {a size : Nat} {code : UInt32} {result : Except Error UInt32}
    (r : Except Error Operation.Value) (hordered : s.Ordered) (ht : Protects s a size code result t) :
    Steps s ⟨.protect a size code, r⟩ t := by
  have hgone : ∀ p lo hi, Steps s ⟨.protect a size code, r⟩
      { s with areas := coalesce (protectAreas p hi lo s.areas).1 } := by
    intro p lo hi
    have hareas : Within 0 Space.gate.start (protectAreas p hi lo s.areas).1 :=
      hordered.protectAreas
    obtain ⟨reached, -, hpasses, -⟩ := exists_passes p hi lo hordered
    exact .other _ r _ (fun _ _ _ h => by cases h) (fun _ h => by cases h) hareas.coalesce rfl
      (hpasses.coalesce hareas).mapped_iff
  cases ht with
  | refused => exact .of_layout r (fun _ _ _ h => by cases h) (fun _ h => by cases h) hordered rfl
  | passed _ p lo hi => exact hgone p lo hi
  | stopped _ p lo hi => exact hgone p lo hi

namespace Kept

variable {past : List Deed} {s t : Space} {d : Deed}

theorem impose (h : Kept past s) (c : Circumstances) : Kept past (c.impose s) :=
  ⟨h.ordered, h.table, h.apart, h.mapped, h.nonempty⟩

theorem frees (h : Kept past s) (a : Nat) :
    Frees s a (Engine.free a s).result (Engine.free a s).state := by
  have hiff := Space.check_empty_iff h.ordered a
  cases hcheck : (check s.look a 0).2 with
  | error e =>
    obtain ⟨hresult, hstate⟩ := free_of_check_eq_error hcheck
    rw [hresult, hstate]
    refine .refused e s (fun hf => ?_) rfl (.refl _)
    rw [hiff.2 ⟨hf.1.1, hf.2.2⟩] at hcheck
    cases hcheck
  | ok u =>
    obtain ⟨hopen, htouch⟩ := hiff.1 hcheck
    obtain ⟨hresult, hstate⟩ := free_of_check_eq_ok hcheck
    rw [hresult, hstate]
    cases hlookup : s.allocations.lookup a with
    | none =>
      rw [release_of_none hlookup]
      refine .refused _ s (fun hf => ?_) rfl (.refl _)
      obtain ⟨n, hn⟩ := hf.2.1
      rw [(lookup_eq_some_iff h.apart h.nonempty).2 hn] at hlookup
      cases hlookup
    | some n =>
      have hmem : (a, n) ∈ s.allocations := (lookup_eq_some_iff h.apart h.nonempty).1 hlookup
      cases hrefusal : s.unmapRefusal with
      | some e =>
        rw [release_of_refusal hlookup hrefusal]
        refine .refused _ _ (fun hf => ?_) rfl (perm_reinserted h.apart h.nonempty hmem)
        rw [hf.1.2] at hrefusal
        cases hrefusal
      | none =>
        rw [release_of_some hlookup hrefusal]
        exact .released n _ ⟨⟨hopen, hrefusal⟩, ⟨n, hmem⟩, htouch⟩ hmem rfl rfl

/-- An operation that enters nothing, strikes nothing out and unmaps nothing. -/
theorem frame (h : Kept past s)
    (hmade : ∀ size type p a, d ≠ ⟨.allocate size type p, .ok (.address a)⟩)
    (hfreed : ∀ a, d ≠ ⟨.free a, .ok .done⟩) (hordered : t.Ordered)
    (htable : t.allocations.Perm s.allocations)
    (hmapped : ∀ b, pageAt t.areas b = none → pageAt s.areas b = none) :
    Kept (past ++ [d]) t where
  ordered := hordered
  table := by
    intro a n
    rw [htable.mem_iff, h.table, live_concat_iff]
    constructor
    · exact fun hlive => .inl ⟨hlive, hfreed a⟩
    · rintro (hlive | ⟨size, type, p, hd, -⟩)
      · exact hlive.1
      · exact (hmade size type p a hd).elim
  apart := (htable.pairwise_iff fun hxy => Apart.symm hxy).2 h.apart
  mapped := fun x hx b hb hnone => h.mapped x (htable.mem_iff.1 hx) b hb (hmapped b hnone)
  nonempty := fun x hx => h.nonempty x (htable.mem_iff.1 hx)

theorem allocated {size n a : Nat} {type protect : UInt32} {p : Protection} (h : Kept past s)
    (hpos : 0 < size) (hn : Rounded size n) (hbelow : a + n ≤ Space.gate.start)
    (hfree : ∀ b, a ≤ b → b < a + n → pageAt s.areas b = none)
    (hareas : t.areas = insertArea ⟨a, a + n, p, .anonymous⟩ s.areas)
    (htable : t.allocations = (a, n) :: s.allocations) :
    Kept (past ++ [⟨.allocate size type protect, .ok (.address a)⟩]) t := by
  have hlt : 0 < n := Nat.lt_of_lt_of_le hpos hn.2.1
  have hpage : ∀ b, pageAt t.areas b = if a ≤ b ∧ b < a + n then some (p, .anonymous)
      else pageAt s.areas b := by
    intro b
    rw [hareas]
    exact pageAt_insertArea hfree b
  refine ⟨?_, fun b m => ?_, ?_, fun x hx b hb => ?_, fun x hx => ?_⟩
  · rw [Space.Ordered, hareas]
    exact h.ordered.insertArea (Nat.zero_le a) (by dsimp only; omega) hbelow hfree
  · rw [htable, List.mem_cons, h.table, live_concat_iff]
    constructor
    · rintro (heq | hlive)
      · cases heq
        exact .inr ⟨size, type, protect, rfl, hn⟩
      · exact .inl ⟨hlive, fun hd => by cases hd⟩
    · rintro (hlive | ⟨size', type', protect', heq, hm⟩)
      · exact .inr hlive.1
      · cases heq
        rw [hm.unique hn]
        exact .inl rfl
  · rw [htable]
    refine List.pairwise_cons.2 ⟨fun x hx b hb => ?_, h.apart⟩
    exact h.mapped x hx b hb.2 (hfree b hb.1.1 hb.1.2)
  · rw [htable] at hx
    rw [hpage]
    split
    · exact fun hnone => by cases hnone
    · next hout =>
      rcases List.mem_cons.1 hx with rfl | hx
      · exact (hout hb).elim
      · exact h.mapped x hx b hb
  · rw [htable] at hx
    rcases List.mem_cons.1 hx with rfl | hx
    · exact hlt
    · exact h.nonempty x hx

theorem released {a n : Nat} (h : Kept past s) (hmem : (a, n) ∈ s.allocations)
    (hareas : t.areas = unmapAreas a (a + n) s.areas)
    (htable : t.allocations = s.allocations.filter (·.1 ≠ a)) :
    Kept (past ++ [⟨.free a, .ok .done⟩]) t := by
  have hin : ∀ x, x ∈ t.allocations ↔ x ∈ s.allocations ∧ x.1 ≠ a := by
    intro x
    rw [htable, List.mem_filter, decide_eq_true_iff]
  -- an entry with another base lies outside the range that is unmapped
  have hout : ∀ x ∈ t.allocations, ∀ b, Covers x b → ¬ (a ≤ b ∧ b < a + n) := by
    intro x hx b hb hab
    obtain ⟨hxs, hne⟩ := (hin x).1 hx
    have hneq : (a, n) ≠ x := fun heq => hne (heq ▸ rfl)
    exact h.apart.forall hmem hxs hneq b ⟨hab, hb⟩
  refine ⟨?_, fun b m => ?_, ?_, fun x hx b hb => ?_, fun x hx => ?_⟩
  · rw [Space.Ordered, hareas]
    exact h.ordered.unmapAreas (Nat.le_add_right a n)
  · rw [hin, h.table, live_concat_iff]
    constructor
    · rintro ⟨hlive, hne⟩
      exact .inl ⟨hlive, fun heq => by cases heq; exact hne rfl⟩
    · rintro (⟨hlive, hd⟩ | ⟨size, type, p, heq, -⟩)
      · exact ⟨hlive, fun heq => hd (by dsimp only at heq; rw [heq])⟩
      · cases heq
  · rw [htable]
    exact h.apart.filter _
  · rw [hareas, pageAt_unmapAreas, if_neg (hout x hx b hb)]
    exact h.mapped x ((hin x).1 hx).1 b hb
  · exact h.nonempty x ((hin x).1 hx).1

theorem steps (h : Kept past s) (op : Operation) :
    Steps s ⟨op, (op.run s).result⟩ (op.run s).state := by
  cases op with
  | allocate size type protect =>
    have hcases := allocates size type protect s
    rw [Operation.run, map_apply]
    cases ho : Engine.allocate size type protect s with
    | mk r t es =>
      rw [ho] at hcases
      cases hcases with
      | mapped n p _ hpos hn hroom hareas htable =>
        exact .allocated size type protect n p _ hpos hn hroom hareas htable
      | refused e => exact .refused _ e _ rfl (.refl _)
  | free a =>
    have hcases := h.frees a
    rw [Operation.run, map_apply]
    cases ho : Engine.free a s with
    | mk r t es =>
      rw [ho] at hcases
      cases hcases with
      | released n _ _ hmem hareas htable => exact .released a n _ hmem hareas htable
      | refused e _ _ hareas htable => exact .refused _ e _ hareas htable
  | protect a size code =>
    rw [Operation.run, map_apply]
    exact steps_protect _ h.ordered (protects a size code s)
  | read a length =>
    rw [Operation.run, map_apply]
    exact .of_layout _ (fun _ _ _ h => by cases h) (fun _ h => by cases h) h.ordered
      (keeps_read Space.layout (fun _ _ => rfl) a length s)
  | write a data =>
    rw [Operation.run, map_apply]
    exact .of_layout _ (fun _ _ _ h => by cases h) (fun _ h => by cases h) h.ordered
      (keeps_write a data s)
  | query a =>
    rw [Operation.run, map_apply]
    exact .of_layout _ (fun _ _ _ h => by cases h) (fun _ h => by cases h) h.ordered
      (keeps_query Space.layout a s)

theorem of_steps (h : Kept past s) (hbelow : s.mapLimit ≤ Space.gate.start)
    (hfree : ∀ b, s.nextMap ≤ b → b < s.mapLimit → pageAt s.areas b = none) (hs : Steps s d t) :
    Kept (past ++ [d]) t := by
  cases hs with
  | allocated size type protect n p _ hpos hn hroom hareas htable =>
    exact h.allocated hpos hn (Nat.le_trans hroom hbelow)
      (fun b hb hlt => hfree b hb (Nat.lt_of_lt_of_le hlt hroom)) hareas htable
  | released a n _ hmem hareas htable => exact h.released hmem hareas htable
  | refused op e _ hareas htable =>
    have hordered : Within 0 Space.gate.start t.areas := hareas ▸ h.ordered
    exact h.frame (fun _ _ _ _ hd => by cases hd) (fun _ hd => by cases hd) hordered htable
      fun b hb => hareas ▸ hb
  | other op r _ hmade hfreed hordered htable hmapped =>
    exact h.frame (fun size type p _ hd => hmade size type p (Deed.mk.inj hd).1)
      (fun a hd => hfreed a (Deed.mk.inj hd).1) hordered (htable ▸ .refl _)
      fun b hb => (hmapped b).1 hb

theorem step (h : Kept past s) {c : Circumstances} (hc : c.Fresh s) (op : Operation) :
    Kept (past ++ [⟨op, (op.run (c.impose s)).result⟩]) (op.run (c.impose s)).state :=
  (h.impose c).of_steps hc.below hc.free ((h.impose c).steps op)

theorem start {s₀ : Space} (hordered : s₀.Ordered) (hnew : s₀.allocations = []) :
    Kept [] s₀ where
  ordered := hordered
  table := by
    intro a n
    rw [hnew]
    refine iff_of_false List.not_mem_nil ?_
    rintro ⟨pre, _, _, _, post, heq, -⟩
    exact List.cons_ne_nil _ _ (List.append_eq_nil_iff.1 heq.symm).2
  apart := hnew ▸ .nil
  mapped := fun x hx => by rw [hnew] at hx; cases hx
  nonempty := fun x hx => by rw [hnew] at hx; cases hx

theorem run {s₀ : Space} (hordered : s₀.Ordered) (hnew : s₀.allocations = [])
    (h : Run s₀ past s) : Kept past s := by
  induction h with
  | start => exact start hordered hnew
  | step _ c hc op ih => exact ih.step hc op

end Kept

/-- What holds between two operations of a run, whatever the system decides before the next one. -/
structure Accounted (past : List Deed) (s : Space) : Prop where
  table : ∀ a n, (a, n) ∈ s.allocations ↔ Live past a n
  apart : s.allocations.Pairwise Apart
  free_iff : ∀ (c : Circumstances) (a : Nat), (Engine.free a (c.impose s)).result = .ok () ↔
    (c.canOpen = true ∧ c.unmapRefusal = none) ∧ (∃ n, (a, n) ∈ s.allocations) ∧ s.Touchable a
  freed : ∀ (c : Circumstances) (a n : Nat), (a, n) ∈ s.allocations →
    (Engine.free a (c.impose s)).result = .ok () →
      (Engine.free a (c.impose s)).state.allocations = s.allocations.filter (·.1 ≠ a) ∧
      ∀ b, pageAt (Engine.free a (c.impose s)).state.areas b =
        if a ≤ b ∧ b < a + n then none else pageAt s.areas b
  again : ∀ (c : Circumstances) (a : Nat) (pre post : List Deed),
    past = pre ++ ⟨.free a, .ok .done⟩ :: post → (∀ d ∈ post, d.result ≠ .ok (.address a)) →
      ∃ e, (Engine.free a (c.impose s)).result = .error e
  unmapped : ∀ (c : Circumstances) (op : Operation) (b : Nat), c.Fresh s →
    pageAt s.areas b ≠ none → pageAt (op.run (c.impose s)).state.areas b = none →
      ∃ a n, op = .free a ∧ Live past a n ∧ Covers (a, n) b
  failed : ∀ (c : Circumstances) (op : Operation) (e : Error),
    (∃ a, op = .free a) ∨ (∃ size type protect, op = .allocate size type protect) →
    (op.run (c.impose s)).result = .error e →
      (op.run (c.impose s)).state.areas = s.areas ∧
      (op.run (c.impose s)).state.allocations.Perm s.allocations

namespace Kept

variable {past : List Deed} {s : Space}

theorem free_eq_ok_iff (h : Kept past s) (c : Circumstances) (a : Nat) :
    (Engine.free a (c.impose s)).result = .ok () ↔ (c.impose s).Freeable a := by
  have hfrees := (h.impose c).frees a
  cases hr : Engine.free a (c.impose s) with
  | mk r t es =>
    rw [hr] at hfrees
    cases hfrees with
    | released n _ hfree => exact iff_of_true rfl hfree
    | refused e _ hfree => exact iff_of_false (fun heq => by cases heq) hfree

theorem freed (h : Kept past s) (c : Circumstances) {a n : Nat} (hmem : (a, n) ∈ s.allocations)
    (hok : (Engine.free a (c.impose s)).result = .ok ()) :
    (Engine.free a (c.impose s)).state.allocations = s.allocations.filter (·.1 ≠ a) ∧
      ∀ b, pageAt (Engine.free a (c.impose s)).state.areas b =
        if a ≤ b ∧ b < a + n then none else pageAt s.areas b := by
  have hfrees := (h.impose c).frees a
  rw [hok] at hfrees
  cases hfrees with
  | released m _ _ hm hareas htable =>
    refine ⟨htable, fun b => ?_⟩
    have hmn : m = n := Option.some.inj <|
      ((lookup_eq_some_iff h.apart h.nonempty).2 hm).symm.trans
        ((lookup_eq_some_iff h.apart h.nonempty).2 hmem)
    rw [hareas, pageAt_unmapAreas, hmn]
    rfl

theorem free_again (h : Kept past s) (c : Circumstances) {a : Nat} {pre post : List Deed}
    (hpast : past = pre ++ ⟨.free a, .ok .done⟩ :: post)
    (hpost : ∀ d ∈ post, d.result ≠ .ok (.address a)) :
    ∃ e, (Engine.free a (c.impose s)).result = .error e := by
  cases hr : (Engine.free a (c.impose s)).result with
  | error e => exact ⟨e, rfl⟩
  | ok u =>
    obtain ⟨-, ⟨n, hn⟩, -⟩ := (h.free_eq_ok_iff c a).1 hr
    exact (not_live_of_freed hpast hpost ((h.table a n).1 hn)).elim

theorem unmapped (h : Kept past s) {c : Circumstances} (hc : c.Fresh s) {op : Operation} {b : Nat}
    (hb : pageAt s.areas b ≠ none) (hgone : pageAt (op.run (c.impose s)).state.areas b = none) :
    ∃ a n, op = .free a ∧ Live past a n ∧ Covers (a, n) b := by
  have hsteps := (h.impose c).steps op
  generalize (op.run (c.impose s)).state = t at hsteps hgone
  generalize (op.run (c.impose s)).result = r at hsteps
  cases hsteps with
  | allocated size type protect n p _ hpos hn hroom hareas =>
    have hfree : ∀ x, c.nextMap ≤ x → x < c.nextMap + n → pageAt s.areas x = none :=
      fun x hx hlt => hc.free x hx (Nat.lt_of_lt_of_le hlt hroom)
    have hpage : pageAt t.areas b = _ := hareas ▸ pageAt_insertArea hfree b
    rw [hpage] at hgone
    split at hgone
    · cases hgone
    · exact (hb hgone).elim
  | released a n _ hmem hareas =>
    rw [hareas, pageAt_unmapAreas] at hgone
    split at hgone
    · next hin => exact ⟨a, n, rfl, (h.table a n).1 hmem, hin⟩
    · exact (hb hgone).elim
  | refused _ e _ hareas => exact (hb (hareas ▸ hgone)).elim
  | other _ _ _ _ _ _ _ hmapped => exact (hb ((hmapped b).1 hgone)).elim

theorem failed (h : Kept past s) (c : Circumstances) {op : Operation} {e : Error}
    (hop : (∃ a, op = .free a) ∨ ∃ size type protect, op = .allocate size type protect)
    (he : (op.run (c.impose s)).result = .error e) :
    (op.run (c.impose s)).state.areas = s.areas ∧
      (op.run (c.impose s)).state.allocations.Perm s.allocations := by
  have hsteps := (h.impose c).steps op
  rw [he] at hsteps
  cases hsteps with
  | refused _ _ _ hareas htable => exact ⟨hareas, htable⟩
  | other _ _ _ hmade hfreed =>
    rcases hop with ⟨a, rfl⟩ | ⟨size, type, protect, rfl⟩
    · exact (hfreed a rfl).elim
    · exact (hmade size type protect rfl).elim

end Kept

theorem accounted_of_run {s₀ s : Space} {past : List Deed} (hordered : s₀.Ordered)
    (hnew : s₀.allocations = []) (h : Run s₀ past s) : Accounted past s := by
  have hkept : Kept past s := .run hordered hnew h
  exact {
    table := hkept.table
    apart := hkept.apart
    free_iff := hkept.free_eq_ok_iff
    freed := fun c _ _ => hkept.freed c
    again := fun c _ _ _ => hkept.free_again c
    unmapped := fun _ _ _ hc => hkept.unmapped hc
    failed := fun c _ _ => hkept.failed c }

theorem exists_run_allocate :
    ∃ s, Run {} [⟨.allocate 5000 Code.commit Code.readWrite, .ok (.address 0x300000000000)⟩] s ∧
      s.allocations = [(0x300000000000, 8192)] ∧
      ∀ a, pageAt s.areas a =
        if 0x300000000000 ≤ a ∧ a < 0x300000002000 then some (⟨true, true, false, false⟩, .anonymous)
        else none := by
  let c : Circumstances := { nextMap := 0x300000000000, mapLimit := 0x400000000000 }
  let op : Operation := .allocate 5000 Code.commit Code.readWrite
  have hresult : (op.run (c.impose {})).result = .ok (.address 0x300000000000) := by cbv
  have htable : (op.run (c.impose {})).state.allocations = [(0x300000000000, 8192)] := by cbv
  have hareas : (op.run (c.impose {})).state.areas =
      [⟨0x300000000000, 0x300000002000, ⟨true, true, false, false⟩, .anonymous⟩] := by cbv
  have hstep := (Run.start : Run {} [] {}).step c ⟨by decide, fun _ _ _ => rfl⟩ op
  rw [hresult] at hstep
  refine ⟨_, hstep, htable, fun a => ?_⟩
  rw [hareas, pageAt_cons, pageAt_nil]

theorem accounted_of_run_twice_freed :
    let c : Circumstances := { nextMap := 0x300000003000, mapLimit := 0x400000000000 }
    let made : Deed := ⟨.allocate 5000 Code.commit Code.readWrite, .ok (.address 0x300000000000)⟩
    Space.Ordered {} ∧ ∃ s t, Run {} [made] s ∧ s.allocations = [(0x300000000000, 8192)] ∧
      Run {} [made, ⟨.free 0x300000000000, .ok .done⟩] t ∧ t.allocations = [] ∧
      ∃ e, (Engine.free 0x300000000000 (c.impose t)).result = .error e := by
  intro c made
  obtain ⟨s, hmade, htable, hpage⟩ := exists_run_allocate
  have hordered : Space.Ordered {} := Nat.zero_le _
  have hs : Accounted [made] s := accounted_of_run hordered rfl hmade
  have hmem : (0x300000000000, 8192) ∈ s.allocations := htable ▸ List.mem_cons_self
  have htouch : s.Touchable 0x300000000000 := by
    refine ⟨(⟨true, true, false, false⟩, .anonymous), ?_, .inl rfl⟩
    rw [hpage, if_pos (by decide)]
  have hok : (Engine.free 0x300000000000 (c.impose s)).result = .ok () :=
    (hs.free_iff c _).2 ⟨⟨rfl, rfl⟩, ⟨_, hmem⟩, htouch⟩
  have hfresh : c.Fresh s := by
    refine ⟨by decide, fun a ha _ => ?_⟩
    rw [hpage, if_neg fun hin => absurd (Nat.le_trans ha (Nat.le_of_lt hin.2)) (by decide)]
  have hrun := hmade.step c hfresh (.free 0x300000000000)
  rw [Operation.run, Action.map_apply, hok] at hrun
  refine ⟨hordered, s, _, hmade, htable, hrun, ?_, ?_⟩
  · have hleft := (hs.freed c _ _ hmem hok).1
    rw [htable] at hleft
    exact hleft
  · exact (accounted_of_run hordered rfl hrun).again c _ [made] [] rfl
      fun d hd => absurd hd List.not_mem_nil

/-- A base that is in the table, on a page that may be read and written, is not given back while the
memory map cannot be read. -/
theorem not_freed_of_unreadable_map :
    let c : Circumstances :=
      { nextMap := 0x300000003000, mapLimit := 0x400000000000, canOpen := false }
    ∃ past s, Run {} past s ∧ c.Fresh s ∧ (0x300000000000, 8192) ∈ s.allocations ∧
      s.Touchable 0x300000000000 ∧ (Engine.free 0x300000000000 (c.impose s)).result ≠ .ok () := by
  intro c
  obtain ⟨s, hmade, htable, hpage⟩ := exists_run_allocate
  have hkept : Kept _ s := .run (Nat.zero_le _) rfl hmade
  refine ⟨_, s, hmade, ⟨by decide, fun a ha _ => ?_⟩, htable ▸ List.mem_cons_self,
    ⟨(⟨true, true, false, false⟩, .anonymous), ?_, .inl rfl⟩, fun hok => ?_⟩
  · rw [hpage, if_neg fun hin => absurd (Nat.le_trans ha (Nat.le_of_lt hin.2)) (by decide)]
  · rw [hpage, if_pos (by decide)]
  · exact Bool.false_ne_true ((hkept.free_eq_ok_iff c _).1 hok).1.1

end RemoteAgent.Memory
