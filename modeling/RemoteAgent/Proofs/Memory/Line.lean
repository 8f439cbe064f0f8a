import RemoteAgent.Proofs.Memory.Partition
import RemoteAgent.Proofs.Text.Reading
import RemoteAgent.Proofs.Text.Utf8

/-! Lines of a memory map. A line as the system writes it is read as the mapping that it tells, whatever
stands in the fields between the permissions and the path. -/

namespace RemoteAgent.Memory

open Text

/-- What the system writes into a line of the memory map. -/
structure Line where
  start : Nat
  stop : Nat
  read : Bool
  write : Bool
  execute : Bool
  shared : Bool
  offset : List Char
  device : List Char
  inode : List Char
  pad : Nat
  path : List Char
  start_lt_stop : start < stop
  stop_le_top : stop ≤ top
  isWord_offset : IsWord offset
  isWord_device : IsWord device
  isWord_inode : IsWord inode
  path_start : ∀ c ∈ path.head?, isBlank c = false
  pad_pos : path ≠ [] → 0 < pad

namespace Line

def address (n : Nat) : List Char := List.replicate (8 - (hexDigits n).length) '0' ++ hexDigits n

def letters (l : Line) : List Char :=
  [if l.read then 'r' else '-', if l.write then 'w' else '-', if l.execute then 'x' else '-',
    if l.shared then 's' else 'p']

def range (l : Line) : List Char := address l.start ++ '-' :: address l.stop

def text (l : Line) : String :=
  String.ofList (l.range ++ ' ' :: (l.letters ++ ' ' :: (l.offset ++ ' ' :: (l.device ++
    ' ' :: (l.inode ++ (List.replicate l.pad ' ' ++ l.path))))))

/-- The mapping that a line tells, with the path up to white space. -/
def mapping (l : Line) : Mapping :=
  { start := l.start, stop := l.stop, read := l.read, write := l.write, execute := l.execute
    path := String.ofList (l.path.takeWhile fun c => !isBlank c) }

theorem readHexFrom_address (n : Nat) : readHexFrom 0 (address n) = some n := by
  rw [address, readHexFrom_zeros, readHexFrom_hexDigits]

theorem digits_address (n : Nat) : ∀ c ∈ address n, hexValue? c ≠ none :=
  hexValue?_ne_none_of_readHexFrom (readHexFrom_address n)

theorem not_mem_address {c : Char} (h : hexValue? c = none) (n : Nat) : c ∉ address n :=
  fun hc => digits_address n c hc h

theorem isWord_range (l : Line) : IsWord l.range := by
  refine ⟨List.append_ne_nil_of_right_ne_nil _ (List.cons_ne_nil _ _), fun c hc => ?_⟩
  rcases List.mem_append.1 hc with hc | hc
  · exact isBlank_eq_false_of_hexValue? (digits_address _ c hc)
  · rcases List.mem_cons.1 hc with rfl | hc
    · decide
    · exact isBlank_eq_false_of_hexValue? (digits_address _ c hc)

theorem isWord_letters (l : Line) : IsWord l.letters := by
  rw [letters]
  cases l.read <;> cases l.write <;> cases l.execute <;> cases l.shared <;> decide

theorem words_text (l : Line) : words l.text.toList =
    [l.range, l.letters, l.offset, l.device, l.inode] ++ words l.path := by
  have hspace : ∀ cs : List Char, ∀ c ∈ (' ' :: cs).head?, isBlank c = true := by
    intro cs c hc
    cases hc
    decide
  have hlast : ∀ c ∈ (List.replicate l.pad ' ' ++ l.path).head?, isBlank c = true := by
    cases hpad : l.pad with
    | zero =>
      have hpath : l.path = [] := by
        by_contra hne
        exact Nat.lt_irrefl 0 (hpad ▸ l.pad_pos hne)
      rw [hpath]
      exact nofun
    | succ n => exact hspace _
  have hskip : ∀ cs, words (' ' :: cs) = words cs := words_cons (by decide)
  rw [text, String.toList_ofList, words_append l.isWord_range (hspace _), hskip,
    words_append l.isWord_letters (hspace _), hskip, words_append l.isWord_offset (hspace _), hskip,
    words_append l.isWord_device (hspace _), hskip, words_append l.isWord_inode hlast,
    words_replicate]
  rfl

theorem readAddress?_address {n : Nat} (h : n ≤ top) : Mapping.readAddress? (address n) = some n := by
  have hread := readHexFrom_address n
  have hdigits := digits_address n
  have hne : address n ≠ [] := by
    rw [address, hexDigits, Nat.toDigits_eq_if (by decide)]
    split <;> simp
  cases hcs : address n with
  | nil => exact (hne hcs).elim
  | cons c r =>
    rw [hcs] at hread hdigits
    have hc : c ≠ '+' := by
      rintro rfl
      exact hdigits '+' List.mem_cons_self (by decide)
    have hread : readHex (c :: r) = some n := hread
    unfold Mapping.readAddress?
    split
    · next heq => exact (hc (List.cons.inj heq).1).elim
    · dsimp only
      rw [hread]
      exact if_pos h

theorem readRange?_range (l : Line) : Mapping.readRange? l.range = some (l.start, l.stop) := by
  have hdash : '-' ∉ address l.start := not_mem_address (by decide) l.start
  have hstart : l.start ≤ top := (Nat.le_of_lt l.start_lt_stop).trans l.stop_le_top
  simp only [Mapping.readRange?, range, splitOnce?_append hdash, Option.bind_eq_bind,
    Option.bind_some, readAddress?_address hstart, readAddress?_address l.stop_le_top, Option.pure_def]

theorem encode_letters (l : Line) : Utf8.encode (String.ofList l.letters) =
    [(if l.read then 'r' else '-').toUInt8, (if l.write then 'w' else '-').toUInt8,
      (if l.execute then 'x' else '-').toUInt8, (if l.shared then 's' else 'p').toUInt8] := by
  rw [letters]
  cases l.read <;> cases l.write <;> cases l.execute <;> cases l.shared <;> decide

theorem parse?_text (l : Line) : Mapping.parse? l.text = some l.mapping := by
  have hpath : ([l.range, l.letters, l.offset, l.device, l.inode] ++ words l.path)[5]?.getD [] =
      l.path.takeWhile fun c => !isBlank c := getD_words_zero l.path_start
  have hread : (if l.read then 'r' else '-').toUInt8 = 'r'.toUInt8 ↔ l.read = true := by
    cases l.read <;> decide
  have hwrite : (if l.write then 'w' else '-').toUInt8 = 'w'.toUInt8 ↔ l.write = true := by
    cases l.write <;> decide
  have hexecute : (if l.execute then 'x' else '-').toUInt8 = 'x'.toUInt8 ↔ l.execute = true := by
    cases l.execute <;> decide
  rw [Mapping.parse?, words_text, hpath]
  simp only [List.cons_append, List.getElem?_cons_zero, List.getElem?_cons_succ, Option.bind_eq_bind,
    Option.bind_some, readRange?_range, encode_letters, if_pos l.start_lt_stop, hread, hwrite, hexecute,
    Bool.decide_eq_true, mapping]

end Line

theorem Protection.ofCode_toCode (p : Protection) :
    ofCode p.toCode = ⟨p.read || p.write, p.write, p.execute, p.write && p.copyOnWrite⟩ := by
  obtain ⟨r, w, x, c⟩ := p
  cases r <;> cases w <;> cases x <;> cases c <;> decide

theorem Protection.ofPlainCode?_toCode (p : Protection) :
    ofPlainCode? p.toCode = some ⟨p.read || p.write, p.write, p.execute, false⟩ := by
  obtain ⟨r, w, x, c⟩ := p
  cases r <;> cases w <;> cases x <;> cases c <;> decide

theorem Line.backing_mapping (l : Line) : l.mapping.toRegion.backing =
    if l.path.head? = some '/' then if l.execute then .image else .mapped else .anonymous := by
  have hfirst : l.mapping.path.toList.head? = l.path.head? := by
    rw [mapping, String.toList_ofList, List.head?_takeWhile]
    cases hpath : l.path.head? with
    | none => rfl
    | some c =>
      have hc : isBlank c = false := l.path_start c hpath
      rw [Option.filter_some_pos (by simpa using hc)]
  rw [← hfirst]
  rfl

/-- Every line of a memory map is read as the mapping that it tells. The region of that mapping has its
addresses, the number of its protection, with reading where only writing is allowed, and a file behind it
exactly if the path begins with a slash. Whatever else is read as a mapping has addresses. -/
theorem parse?_reads :
    (∀ l : Line, Mapping.parse? l.text = some l.mapping ∧
      l.mapping.toRegion.base = l.start ∧ l.mapping.toRegion.size = l.stop - l.start ∧
      l.mapping.toRegion.protection = ⟨l.read || l.write, l.write, l.execute, false⟩ ∧
      Protection.ofPlainCode? l.mapping.toRegion.protect =
        some ⟨l.read || l.write, l.write, l.execute, false⟩ ∧
      l.mapping.toRegion.state = (if l.read || l.write || l.execute then .commit else .reserve) ∧
      l.mapping.toRegion.backing =
        if l.path.head? = some '/' then if l.execute then .image else .mapped else .anonymous) ∧
    ∀ text m, Mapping.parse? text = some m → m.start < m.stop := by
  refine ⟨fun l => ⟨l.parse?_text, rfl, rfl, ?_, ?_, ?_, l.backing_mapping⟩, fun _ _ h => ?_⟩
  · have hprotection := l.mapping.protection.ofCode_toCode
    rw [Mapping.protection, Bool.and_false] at hprotection
    exact hprotection
  · exact l.mapping.protection.ofPlainCode?_toCode
  · exact l.mapping.state_toRegion
  · exact (Mapping.proper_of_parse? h).nonempty

def Line.ofDeleted : Line where
  start := 0x7f3a1c000000
  stop := 0x7f3a1c021000
  read := true
  write := false
  execute := true
  shared := false
  offset := "00002000".toList
  device := "08:01".toList
  inode := "1234".toList
  pad := 5
  path := "/opt/a b (deleted)".toList
  start_lt_stop := by decide
  stop_le_top := by decide
  isWord_offset := by decide
  isWord_device := by decide
  isWord_inode := by decide
  path_start := fun c hc => by
    cases (show some '/' = some c from hc)
    decide
  pad_pos := fun _ => by decide

theorem parse?_reads_deleted :
    let text := "7f3a1c000000-7f3a1c021000 r-xp 00002000 08:01 1234     /opt/a b (deleted)"
    ∃ m, Mapping.parse? text = some m ∧ m.start < m.stop ∧ m.path = "/opt/a" ∧
      m.toRegion.backing = .image := by
  have htext : Line.ofDeleted.text =
      "7f3a1c000000-7f3a1c021000 r-xp 00002000 08:01 1234     /opt/a b (deleted)" := by decide
  obtain ⟨hread, -, -, -, -, -, hbacking⟩ := parse?_reads.1 Line.ofDeleted
  rw [htext] at hread
  have hfile : Line.ofDeleted.path.head? = some '/' := by decide
  have hexecute : Line.ofDeleted.execute = true := rfl
  rw [if_pos hfile, if_pos hexecute] at hbacking
  exact ⟨Line.ofDeleted.mapping, hread, parse?_reads.2 _ _ hread, by decide, hbacking⟩

end RemoteAgent.Memory
