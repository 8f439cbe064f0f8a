import Mathlib.Data.String.Basic
import RemoteAgent.Text.Path

/-! The names in a path: those of a directory, and then those of what is in it. -/

namespace RemoteAgent.Text.Path

theorem extract_part (front part rest : List Char) :
    String.Pos.Raw.extract (String.ofList (front ++ part ++ rest)) ⟨String.utf8Len front⟩
      ⟨String.utf8Len (front ++ part)⟩ = String.ofList part := by
  rw [String.utf8Len_append]
  exact String.extract_of_valid front part rest

theorem splitOnAux_slash (front part rest : List Char) (found : List String) :
    String.splitOnAux (String.ofList (front ++ part ++ rest)) "/" ⟨String.utf8Len front⟩
        ⟨String.utf8Len (front ++ part)⟩ 0 found =
      found.reverse ++ (List.splitOnPPrepend (· == '/') rest part.reverse).map String.ofList := by
  induction rest generalizing front part found with
  | nil =>
    have hend : String.Pos.Raw.atEnd (String.ofList (front ++ part ++ []))
        ⟨String.utf8Len (front ++ part)⟩ = true := (String.atEnd_of_valid _ []).2 rfl
    rw [String.splitOnAux, if_pos hend, extract_part, List.splitOnPPrepend_nil, List.reverse_reverse,
      List.reverse_cons, List.map_singleton]
  | cons x rest ih =>
    have hmore : ¬ String.Pos.Raw.atEnd (String.ofList (front ++ part ++ x :: rest))
        ⟨String.utf8Len (front ++ part)⟩ = true := fun hend => by
      cases (String.atEnd_of_valid _ (x :: rest)).1 hend
    have hget : String.Pos.Raw.get (String.ofList (front ++ part ++ x :: rest))
        ⟨String.utf8Len (front ++ part)⟩ = x := String.get_of_valid _ (x :: rest)
    have hnext : String.Pos.Raw.next (String.ofList (front ++ part ++ x :: rest))
        ⟨String.utf8Len (front ++ part)⟩ = ⟨String.utf8Len (front ++ part ++ [x])⟩ := by
      rw [String.utf8Len_append _ [x], String.utf8Len_cons, String.utf8Len_nil, Nat.zero_add]
      exact String.next_of_valid _ x rest
    have hslash : String.Pos.Raw.get "/" 0 = '/' := by decide
    have hwhole : front ++ part ++ [x] ++ rest = front ++ part ++ x :: rest :=
      (List.append_cons ..).symm
    rw [String.splitOnAux, if_neg hmore, hget, hslash, List.splitOnPPrepend_cons_eq_if]
    by_cases hx : (x == '/') = true
    · -- The part is a name, and the next one begins behind the slash.
      have hlater := ih (front ++ part ++ [x]) [] (String.ofList part :: found)
      have hone : String.Pos.Raw.atEnd "/" (String.Pos.Raw.next "/" 0) = true := by decide
      have hback : String.Pos.Raw.unoffsetBy ⟨String.utf8Len (front ++ part ++ [x])⟩
          (String.Pos.Raw.next "/" 0) = ⟨String.utf8Len (front ++ part)⟩ := by
        rw [String.utf8Len_append _ [x], eq_of_beq hx]
        exact congrArg String.Pos.Raw.mk (Nat.add_sub_cancel ..)
      rw [List.append_nil, hwhole] at hlater
      rw [if_pos hx, if_pos hx]
      dsimp only
      rw [if_pos hone, hnext, hback, extract_part, hlater, List.reverse_cons, List.append_assoc,
        List.reverse_reverse]
      rfl
    · have hlater := ih front (part ++ [x]) found
      have hback : String.Pos.Raw.unoffsetBy ⟨String.utf8Len (front ++ part)⟩ 0 =
        ⟨String.utf8Len (front ++ part)⟩ := rfl
      rw [← List.append_assoc, hwhole, List.reverse_append] at hlater
      rw [if_neg hx, if_neg hx, hback, hnext, hlater]
      rfl

theorem splitOn_slash (path : String) :
    path.splitOn "/" = (path.toList.splitOn '/').map String.ofList := by
  have hsplit := splitOnAux_slash [] [] path.toList []
  have hsep : ¬ ("/" == "") = true := by decide
  rw [String.splitOn, if_neg hsep]
  rw [List.append_nil, List.nil_append, String.ofList_toList] at hsplit
  exact hsplit

theorem names_of_plain {path : String} (h : '/' ∉ path.toList) (hname : path ≠ "" ∧ path ≠ ".") :
    names path = [path] := by
  rw [names, splitOn_slash, List.splitOn_eq_singleton h, List.map_singleton, String.ofList_toList]
  simp [hname]

theorem names_append_slash (dir path : String) :
    names (dir ++ "/" ++ path) = names dir ++ names path := by
  have hlist : (dir ++ "/" ++ path).toList = dir.toList ++ '/' :: path.toList := by
    rw [String.toList_append, String.toList_append, List.append_assoc]
    rfl
  rw [names, splitOn_slash, hlist, List.splitOn_append_cons_self, List.map_append,
    List.filter_append, ← splitOn_slash, ← splitOn_slash, names, names]

theorem names_empty : names "" = [] := by
  rw [names, splitOn_slash]
  rfl

theorem isAbsolute_of_plain {path : String} (h : '/' ∉ path.toList) : isAbsolute path = false := by
  rw [isAbsolute, decide_eq_false_iff_not]
  exact fun hhead => h (List.mem_of_mem_head? hhead)

/-- What is in a directory is written behind the directory, with one slash at least between them. -/
theorem join_cases {path : String} (h : isAbsolute path = false) (dir : String) :
    dir = "" ∧ join dir path = path ∨ dir ≠ "" ∧
      ((∃ front, dir = front ++ "/" ∧ join dir path = dir ++ path) ∨
        join dir path = dir ++ "/" ++ path) := by
  rw [join, h, Bool.false_or]
  by_cases hdir : dir = ""
  · exact .inl ⟨hdir, if_pos (decide_eq_true hdir)⟩
  · rw [if_neg fun hempty => hdir (of_decide_eq_true hempty)]
    refine .inr ⟨hdir, ?_⟩
    by_cases hslash : dir.toList.getLast? = some '/'
    · obtain ⟨front, hfront⟩ := List.getLast?_eq_some_iff.1 hslash
      refine .inl ⟨String.ofList front, ?_, if_pos hslash⟩
      rw [← String.ofList_toList (s := dir), hfront, String.ofList_append]
    · exact .inr (if_neg hslash)

theorem names_join {path : String} (h : isAbsolute path = false) (dir : String) :
    names (join dir path) = names dir ++ names path := by
  rcases join_cases h dir with ⟨hdir, hjoin⟩ | ⟨-, ⟨front, hdir, hjoin⟩ | hjoin⟩
  · rw [hjoin, hdir, names_empty, List.nil_append]
  · have hfront := names_append_slash front ""
    rw [String.append_empty, names_empty, List.append_nil, ← hdir] at hfront
    rw [hjoin, hfront, hdir, names_append_slash]
  · rw [hjoin, names_append_slash]

theorem isAbsolute_join {path : String} (h : isAbsolute path = false) (dir : String) :
    isAbsolute (join dir path) = isAbsolute dir := by
  have happend : ∀ rest, dir ≠ "" → isAbsolute (dir ++ rest) = isAbsolute dir := by
    intro rest hdir
    have hlist : dir.toList ≠ [] := fun hnil => hdir (String.toList_eq_nil_iff.1 hnil)
    rw [isAbsolute, String.toList_append, List.head?_append_of_ne_nil _ hlist, isAbsolute]
  rcases join_cases h dir with ⟨hdir, hjoin⟩ | ⟨hdir, ⟨-, -, hjoin⟩ | hjoin⟩
  · rw [hjoin, h, hdir]
    rfl
  · rw [hjoin, happend path hdir]
  · rw [hjoin, String.append_assoc, happend _ hdir]

end RemoteAgent.Text.Path
