import RemoteAgent.Proofs.Action.Endings
import RemoteAgent.Proofs.Memory.Areas
import RemoteAgent.Proofs.Memory.Validation

/-! The operations of the engine, by what they do to the areas of the process and to the table of
allocations: one equation for each way an operation can end. -/

namespace RemoteAgent.Memory

open RemoteAgent.Action

section Members

variable {lo hi : Nat} {areas : List Area}

theorem Within.of_mem (h : Within lo hi areas) {r : Area} (hr : r ∈ areas) :
    lo ≤ r.start ∧ r.start < r.stop ∧ r.stop ≤ hi := by
  induction areas generalizing lo with
  | nil => cases hr
  | cons b rs ih =>
    obtain ⟨hlo, hb, hrs⟩ := h
    rcases List.mem_cons.1 hr with rfl | hmem
    · exact ⟨hlo, hb, hrs.le⟩
    · obtain ⟨hstart, hlt, hstop⟩ := ih hrs hmem
      exact ⟨by omega, hlt, hstop⟩

theorem Within.pairwise (h : Within lo hi areas) :
    areas.Pairwise fun r r' => r.start ≤ r'.start ∧ r.stop ≤ r'.start := by
  induction areas generalizing lo with
  | nil => exact .nil
  | cons b rs ih =>
    obtain ⟨-, hb, hrs⟩ := h
    refine List.pairwise_cons.2 ⟨fun r hr => ?_, ih hrs⟩
    have := hrs.of_mem hr
    omega

theorem pageAt_of_mem (h : Within lo hi areas) {r : Area} (hr : r ∈ areas) {a : Nat}
    (ha : r.contains a = true) : pageAt areas a = some (r.protection, r.source) := by
  have hin : r.start ≤ a ∧ a < r.stop := Area.contains_iff.1 ha
  induction areas generalizing lo with
  | nil => cases hr
  | cons b rs ih =>
    rcases List.mem_cons.1 hr with rfl | hmem
    · rw [pageAt_cons, if_pos hin]
    · have := h.2.2.of_mem hmem
      rw [pageAt_cons, if_neg (by omega)]
      exact ih h.2.2 hmem

theorem exists_mem_of_pageAt {a : Nat} {g : Protection × Area.Source}
    (h : pageAt areas a = some g) :
    ∃ r ∈ areas, r.contains a = true ∧ g = (r.protection, r.source) := by
  obtain ⟨r, hr, rfl⟩ := Option.map_eq_some_iff.1 h
  exact ⟨r, List.mem_of_find?_eq_some hr, by simpa using List.find?_some hr, rfl⟩

end Members

namespace Space

/-- The areas rise and lie below the page at the very top of the map. -/
def Ordered (s : Space) : Prop := Within 0 gate.start s.areas

def Touchable (s : Space) (a : Nat) : Prop :=
  ∃ g, pageAt s.areas a = some g ∧ (g.1.read = true ∨ g.1.write = true)

theorem usable_mappings_iff {s : Space} (h : s.Ordered) {a : Nat} :
    Usable s.mappings a ↔ s.Touchable a := by
  unfold Usable mappings
  constructor
  · rintro ⟨m, hm, ha, hacc⟩
    rcases List.mem_append.1 hm with hm | hm
    · obtain ⟨r, hr, rfl⟩ := List.mem_map.1 hm
      exact ⟨_, pageAt_of_mem h hr ha, hacc⟩
    · rw [List.mem_singleton] at hm
      subst hm
      exact absurd hacc (by decide)
  · rintro ⟨g, hg, hacc⟩
    obtain ⟨r, hr, ha, rfl⟩ := exists_mem_of_pageAt hg
    exact ⟨r.toMapping, List.mem_append_left _ (List.mem_map_of_mem hr), ha, hacc⟩

theorem sorted_mappings {s : Space} (h : s.Ordered) : Mapping.Sorted s.mappings := by
  refine List.pairwise_append.2 ⟨?_, List.pairwise_singleton _ _, fun m hm g hg => ?_⟩
  · exact List.pairwise_map.2 (h.pairwise.imp fun hr => hr.1)
  · obtain ⟨r, hr, rfl⟩ := List.mem_map.1 hm
    rw [List.mem_singleton] at hg
    subst hg
    have := h.of_mem hr
    show r.start ≤ gate.start
    omega

theorem disjoint_mappings {s : Space} (h : s.Ordered) : Mapping.Disjoint s.mappings := by
  have happart : ∀ {m n : Mapping}, m.stop ≤ n.start →
      ∀ a, ¬ (m.contains a = true ∧ n.contains a = true) := by
    intro m n hle a ⟨hm, hn⟩
    rw [Mapping.contains_iff] at hm hn
    omega
  refine List.pairwise_append.2 ⟨?_, List.pairwise_singleton _ _, fun m hm g hg => ?_⟩
  · exact List.pairwise_map.2 (h.pairwise.imp fun hr => happart hr.2)
  · obtain ⟨r, hr, rfl⟩ := List.mem_map.1 hm
    rw [List.mem_singleton] at hg
    subst hg
    exact happart (h.of_mem hr).2.2

theorem stop_mappings_le {s : Space} (h : s.Ordered) : ∀ m ∈ s.mappings, m.stop ≤ top := by
  intro m hm
  have htop : gate.start ≤ top := by decide
  rcases List.mem_append.1 hm with hm | hm
  · obtain ⟨r, hr, rfl⟩ := List.mem_map.1 hm
    exact Nat.le_trans (h.of_mem hr).2.2 htop
  · rw [List.mem_singleton] at hm
    subst hm
    decide

theorem look_of_open {s : Space} (h : s.canOpen = true) :
    s.look = fun a => some (regionAt s.mappings a) := by
  funext a
  rw [look, if_pos h]

theorem check_empty_iff {s : Space} (h : s.Ordered) (a : Nat) :
    (check s.look a 0).2 = .ok () ↔ s.canOpen = true ∧ s.Touchable a := by
  rcases Nat.lt_or_ge top (a + 0) with hover | hle
  · rw [check_of_overflow hover]
    refine iff_of_false (fun h => by cases h) ?_
    rintro ⟨-, g, hg, -⟩
    have hgate : gate.start ≤ a := Nat.le_trans (by decide) (Nat.le_of_lt hover)
    rw [Within.pageAt_of_ge h hgate] at hg
    cases hg
  · rw [check_of_le hle]
    cases hopen : s.canOpen with
    | false =>
      have hlook : s.look a = none := by rw [look, hopen]; rfl
      rw [checkFrom, hlook]
      exact iff_of_false (fun h => by cases h) fun h => Bool.false_ne_true h.1
    | true =>
      have htells := tells_regionAt (sorted_mappings h) (disjoint_mappings h) (stop_mappings_le h)
      have haccepted : Accepted (Usable s.mappings) a (a + 0) ↔ s.Touchable a := by
        rw [← usable_mappings_iff h]
        constructor
        · exact fun hall => hall a (touches_self a _)
        · rintro husable b ⟨hle, hlt | rfl⟩
          · omega
          · exact husable
      rw [look_of_open hopen]
      rcases checkFrom_of_tells htells (a + 0) a with ⟨hok, hall⟩ | ⟨e, he, href⟩
      · rw [hok]
        exact iff_of_true rfl ⟨rfl, haccepted.1 hall⟩
      · rw [he]
        refine iff_of_false (fun h => by cases h) fun h => ?_
        exact not_accepted_of_refused href (haccepted.2 h.2)

end Space

section Copy

namespace Space

variable {s : Space} {access : Access} {a n b : Nat} {signal : Int} {data : List UInt8}

theorem firstTrap?_eq_some (h : s.firstTrap? access a n = some (signal, b)) :
    a ≤ b ∧ b < a + n ∧ s.trap? access b = some signal ∧
      ∀ x, a ≤ x → x < b → s.trap? access x = none := by
  induction n generalizing a with
  | zero => cases h
  | succ n ih =>
    rw [firstTrap?] at h
    split at h
    · next htrap =>
      cases h
      exact ⟨Nat.le_refl _, by omega, htrap, fun x hle hlt => (Nat.not_lt.2 hle hlt).elim⟩
    · next hnone =>
      obtain ⟨hle, hlt, htrap, hbelow⟩ := ih h
      refine ⟨by omega, by omega, htrap, fun x hx hxb => ?_⟩
      rcases Nat.eq_or_lt_of_le hx with rfl | hgt
      · exact hnone
      · exact hbelow x hgt hxb

theorem store_of_none (h : s.firstTrap? .write a data.length = none) :
    store a data s = ⟨.ok (), s.put a data, []⟩ := by
  rw [store, bind_of_ok (get_apply s), h]
  rfl

theorem store_of_some (h : s.firstTrap? .write a data.length = some (signal, b)) :
    store a data s =
      ⟨.error (.fault signal (told b)), s.tear a data, []⟩ := by
  rw [store, bind_of_ok (get_apply s), h]
  rfl

theorem overlay_apply (contents : Nat → UInt8) (a : Nat) (data : List UInt8) (x : Nat) :
    overlay contents a data.toArray x =
      if a ≤ x ∧ x < a + data.length then data.getD (x - a) 0 else contents x := by
  rw [overlay, Array.getD_eq_getD_getElem?, List.getElem?_toArray, List.getD_eq_getElem?_getD]
  by_cases hle : a ≤ x
  · rw [if_pos hle]
    by_cases hlt : x - a < data.length
    · rw [List.getElem?_eq_getElem hlt, if_pos (by omega)]
      rfl
    · rw [List.getElem?_eq_none (Nat.not_lt.1 hlt), if_neg (by omega)]
      rfl
  · rw [if_neg hle, if_neg fun hin => hle hin.1]

theorem contents_put (s : Space) (a : Nat) (data : List UInt8) (x : Nat) :
    (s.put a data).contents x =
      if a ≤ x ∧ x < a + data.length then data.getD (x - a) 0 else s.contents x :=
  overlay_apply s.contents a data x

theorem contents_tear (s : Space) (a : Nat) (data : List UInt8) (x : Nat) :
    (s.tear a data).contents x =
      if s.torn x ∧ s.trap? .write x = none then overlay s.contents a data.toArray x
      else s.contents x := rfl

end Space

end Copy

section Validate

variable {α : Type} {s : Space} {a n : Nat} {next : Unit → Action Space α}

theorem result_validate (address length : Nat) (s : Space) :
    (Engine.validate address length s).result = (check s.look address length).2 := by
  obtain ⟨es, hval⟩ := Space.validate_apply address length s
  rw [hval]

theorem validate_bind_of_error {e : Error} (h : (check s.look a n).2 = .error e) :
    ((Engine.validate a n >>= next) s).result = .error e ∧
      ((Engine.validate a n >>= next) s).state = s := by
  obtain ⟨es, hval⟩ := Space.validate_apply a n s
  rw [h] at hval
  rw [bind_of_error hval]
  exact ⟨rfl, rfl⟩

theorem validate_bind_of_ok (h : (check s.look a n).2 = .ok ()) :
    ((Engine.validate a n >>= next) s).result = (next () s).result ∧
      ((Engine.validate a n >>= next) s).state = (next () s).state := by
  obtain ⟨es, hval⟩ := Space.validate_apply a n s
  rw [h] at hval
  rw [bind_of_ok hval]
  exact ⟨rfl, rfl⟩

end Validate

section Free

variable {s : Space} {a n : Nat}

theorem free_of_check_eq_error {e : Error} (h : (check s.look a 0).2 = .error e) :
    (Engine.free a s).result = .error e ∧ (Engine.free a s).state = s := validate_bind_of_error h

theorem free_of_check_eq_ok (h : (check s.look a 0).2 = .ok ()) :
    (Engine.free a s).result = (Space.release a s).result ∧
      (Engine.free a s).state = (Space.release a s).state := by
  unfold Engine.free
  rw [(validate_bind_of_ok h).1, (validate_bind_of_ok h).2]
  show ((Space.release a >>= fun _ => _) s).result = _ ∧ ((Space.release a >>= fun _ => _) s).state = _
  cases hr : Space.release a s with
  | mk r t es' =>
    cases r with
    | ok u =>
      rw [bind_of_ok hr]
      exact ⟨rfl, rfl⟩
    | error e =>
      rw [bind_of_error hr]
      exact ⟨rfl, rfl⟩

theorem release_of_none (h : s.allocations.lookup a = none) :
    Space.release a s = ⟨.error (.memoryAccess a .notAllocated), s, []⟩ := by
  rw [Space.release, bind_of_ok (get_apply s), h]
  rfl

theorem release_of_refusal {e : OsError} (h : s.allocations.lookup a = some n)
    (he : s.unmapRefusal = some e) :
    Space.release a s = ⟨.error (.memoryAccess a (.unmapRefused e)),
      { s with allocations := (a, n) :: s.allocations.filter (·.1 ≠ a) }, []⟩ := by
  rw [Space.release, bind_of_ok (get_apply s), h]
  dsimp only
  rw [he]
  rfl

theorem release_of_some (h : s.allocations.lookup a = some n) (he : s.unmapRefusal = none) :
    Space.release a s = ⟨.ok (), { s with
      areas := unmapAreas a (a + n) s.areas
      allocations := s.allocations.filter (·.1 ≠ a) }, []⟩ := by
  rw [Space.release, bind_of_ok (get_apply s), h]
  dsimp only
  rw [he]
  rfl

end Free

section Allocate

def Rounded (size n : Nat) : Prop := n % pageSize = 0 ∧ size ≤ n ∧ n < size + pageSize

theorem rounded_of_pageUp? {size n : Nat} (h : pageUp? size = some n) : Rounded size n := by
  unfold pageUp? add? at h
  split at h
  · cases h
    unfold Rounded pageDown pageSize
    omega
  · cases h

theorem Rounded.unique {size m n : Nat} (hm : Rounded size m) (hn : Rounded size n) : m = n := by
  unfold Rounded pageSize at hm hn
  omega

variable {s : Space}

theorem map_of_le {length : Nat} (h : s.nextMap + length ≤ s.mapLimit) (p : Protection) :
    Space.map length p s = ⟨.ok s.nextMap, { s with
      areas := insertArea ⟨s.nextMap, s.nextMap + length, p, .anonymous⟩ s.areas
      contents := fun a =>
        if s.nextMap ≤ a ∧ a < s.nextMap + length then 0 else s.contents a
      nextMap := s.nextMap + length + pageSize }, []⟩ := by
  rw [Space.map, bind_of_ok (get_apply s), if_pos h]
  rfl

theorem map_of_lt {length : Nat} (h : s.mapLimit < s.nextMap + length) (p : Protection) :
    Space.map length p s = ⟨.error (.resourceExhausted (.mapRefused length .outOfMemory)), s, []⟩ := by
  rw [Space.map, bind_of_ok (get_apply s), if_neg (Nat.not_le.2 h)]
  rfl

/-- An allocation maps whole pages of its own where the system has room, and enters them into the
table; if it fails, it changes nothing. -/
inductive Allocates (s : Space) (size : Nat) : Except Error Nat → Space → Prop
  | mapped (n : Nat) (p : Protection) (t : Space) (hpos : 0 < size) (hn : Rounded size n)
    (hroom : s.nextMap + n ≤ s.mapLimit)
    (hareas : t.areas = insertArea ⟨s.nextMap, s.nextMap + n, p, .anonymous⟩ s.areas)
    (htable : t.allocations = (s.nextMap, n) :: s.allocations) :
    Allocates s size (.ok s.nextMap) t
  | refused (e : Error) : Allocates s size (.error e) s

theorem allocate_cases (size : Nat) (allocationType protect : UInt32) (s : Space) :
    (∃ e, (Space.allocate size allocationType protect s).result = .error e ∧
      (Space.allocate size allocationType protect s).state = s) ∨
    ∃ n p, 0 < size ∧ Rounded size n ∧ s.nextMap + n ≤ s.mapLimit ∧
      (Space.allocate size allocationType protect s).result = .ok s.nextMap ∧
      (Space.allocate size allocationType protect s).state = { s with
        areas := insertArea ⟨s.nextMap, s.nextMap + n, p, .anonymous⟩ s.areas
        contents := fun a => if s.nextMap ≤ a ∧ a < s.nextMap + n then 0 else s.contents a
        nextMap := s.nextMap + n + pageSize
        allocations := (s.nextMap, n) :: s.allocations } := by
  unfold Space.allocate
  by_cases hsize : size = 0
  · rw [if_pos hsize]
    exact .inl ⟨_, rfl, rfl⟩
  · rw [if_neg hsize]
    by_cases hkind : (!(Code.commits allocationType || Code.reserves allocationType)) = true
    · rw [if_pos hkind]
      exact .inl ⟨_, rfl, rfl⟩
    · rw [if_neg hkind]
      cases Protection.ofPlainCode? protect with
      | none => exact .inl ⟨_, rfl, rfl⟩
      | some p =>
        cases hup : pageUp? size with
        | none => exact .inl ⟨_, rfl, rfl⟩
        | some n =>
          dsimp only
          rcases Nat.lt_or_ge s.mapLimit (s.nextMap + n) with hlt | hle
          · rw [bind_of_error (map_of_lt hlt _)]
            exact .inl ⟨_, rfl, rfl⟩
          · rw [bind_of_ok (map_of_le hle _)]
            exact .inr ⟨n, _, Nat.pos_of_ne_zero hsize, rounded_of_pageUp? hup, hle, rfl, rfl⟩

theorem engine_allocate_apply (size : Nat) (allocationType protect : UInt32) (s : Space) :
    (Engine.allocate size allocationType protect s).result =
        (Space.allocate size allocationType protect s).result ∧
      (Engine.allocate size allocationType protect s).state =
        (Space.allocate size allocationType protect s).state :=
  told_apply (Space.allocate size allocationType protect) _ s

theorem allocates (size : Nat) (allocationType protect : UInt32) (s : Space) :
    Allocates s size (Engine.allocate size allocationType protect s).result
      (Engine.allocate size allocationType protect s).state := by
  obtain ⟨hresult, hstate⟩ := engine_allocate_apply size allocationType protect s
  rw [hresult, hstate]
  rcases allocate_cases size allocationType protect s with
    ⟨e, hr, hs⟩ | ⟨n, p, hpos, hn, hroom, hr, hs⟩
  · rw [hr, hs]
    exact .refused e
  · rw [hr, hs]
    exact .mapped n p _ hpos hn hroom rfl rfl

end Allocate

section Rest

/-- What maps and tells who owns: all that allocating, freeing and protecting can change. -/
def Space.layout (s : Space) : List Area × List (Nat × Nat) := (s.areas, s.allocations)

variable {β : Type} (view : Space → β)

theorem keeps_validate (address length : Nat) : Keeps view (Engine.validate address length) := by
  intro s
  obtain ⟨es, h⟩ := Space.validate_apply address length s
  rw [h]

theorem keeps_load (address length : Nat) : Keeps view (Space.load address length) := by
  refine keeps_get.bind fun s => ?_
  split
  · exact keeps_fail _
  · exact keeps_pure _

theorem keeps_read (hscopes : ∀ n s, view (Fault.Scopes.setOpenScopes n s) = view s)
    (address length : Nat) :
    Keeps view (Engine.read address length : Action Space (List UInt8)) := by
  unfold Engine.read
  refine (keeps_validate view address length).bind fun _ => ?_
  have hload : Keeps view (AddressSpace.load address length : Action Space (List UInt8)) :=
    Fault.keeps_guarded hscopes (keeps_load view address length)
  dsimp only
  split
  · exact (keeps_pure _).bind fun _ => (keeps_tell _).bind fun _ => keeps_pure _
  · exact hload.bind fun _ => (keeps_tell _).bind fun _ => keeps_pure _

theorem keeps_looked (asked : List Nat) : Keeps view (Space.looked asked) := by
  intro s
  obtain ⟨es, h⟩ := Space.looked_apply asked s
  rw [h]

theorem keeps_query (address : Nat) : Keeps view (Engine.query address : Action Space UInt32) := by
  unfold Engine.query
  refine keeps_get.bind fun s => ?_
  exact (keeps_looked view [address]).bind fun _ => keeps_pure _

theorem keeps_store (address : Nat) (data : List UInt8) :
    Keeps Space.layout (Space.store address data) := by
  intro s
  rw [Space.store, bind_of_ok (get_apply s)]
  cases s.firstTrap? .write address data.length with
  | none => rfl
  | some t => rfl

theorem keeps_write (address : Nat) (data : List UInt8) :
    Keeps Space.layout (Engine.write address data : Action Space Unit) := by
  unfold Engine.write
  refine (keeps_validate Space.layout address data.length).bind fun _ => ?_
  have hstore : Keeps Space.layout (AddressSpace.store address data : Action Space Unit) :=
    Fault.keeps_guarded (fun _ _ => rfl) (keeps_store address data)
  split
  · exact hstore.bind fun _ => keeps_tell _
  · exact (keeps_pure _).bind fun _ => keeps_tell _

/-- Protecting is refused at once, or goes over the pages around the range, to the end or up to where
the system stops. -/
inductive Protects (s : Space) (address size : Nat) (code : UInt32) : Except Error UInt32 → Space → Prop
  | refused (e : Error) : Protects s address size code (.error e) s
  | passed (old : UInt32) (p : Protection) (lo hi : Nat) (hp : Protection.ofPlainCode? code = some p)
    (hpages : Space.pagesOf? address size = some (lo, hi))
    (hdone : (protectAreas p hi lo s.areas).2 = none) :
    Protects s address size code (.ok old)
      { s with areas := coalesce (protectAreas p hi lo s.areas).1 }
  | stopped (e : Error) (p : Protection) (lo hi : Nat) (hp : Protection.ofPlainCode? code = some p)
    (hpages : Space.pagesOf? address size = some (lo, hi)) (cause : OsError)
    (hstop : (protectAreas p hi lo s.areas).2 = some cause) :
    Protects s address size code (.error e)
      { s with areas := coalesce (protectAreas p hi lo s.areas).1 }

theorem protects_space (address size : Nat) (code : UInt32) (s : Space) :
    Protects s address size code (Space.protect address size code s).result
      (Space.protect address size code s).state := by
  unfold Space.protect
  cases hp : Protection.ofPlainCode? code with
  | none => exact .refused _
  | some p =>
    obtain ⟨es, hlooked⟩ := Space.looked_apply [address] s
    dsimp only
    rw [bind_of_ok (get_apply s), bind_of_ok hlooked]
    cases hpages : Space.pagesOf? address size with
    | none => exact .refused _
    | some pages =>
      obtain ⟨lo, hi⟩ := pages
      dsimp only
      rw [bind_of_ok (set_apply _ _)]
      cases hend : (protectAreas p hi lo s.areas).2 with
      | none => exact .passed _ p lo hi hp hpages hend
      | some e => exact .stopped _ p lo hi hp hpages e hend

theorem protect_of_check_eq_ok {s : Space} {address size : Nat} {code : UInt32}
    (h : (check s.look address size).2 = .ok ()) :
    (Engine.protect address size code s).result = (Space.protect address size code s).result ∧
      (Engine.protect address size code s).state = (Space.protect address size code s).state := by
  unfold Engine.protect
  rw [(validate_bind_of_ok h).1, (validate_bind_of_ok h).2]
  exact told_apply (Space.protect address size code) _ s

theorem protects (address size : Nat) (code : UInt32) (s : Space) :
    Protects s address size code (Engine.protect address size code s).result
      (Engine.protect address size code s).state := by
  cases hcheck : (check s.look address size).2 with
  | error e =>
    unfold Engine.protect
    rw [(validate_bind_of_error hcheck).1, (validate_bind_of_error hcheck).2]
    exact .refused e
  | ok u =>
    rw [(protect_of_check_eq_ok hcheck).1, (protect_of_check_eq_ok hcheck).2]
    exact protects_space address size code s

end Rest

end RemoteAgent.Memory
