import RemoteAgent.Channel.Name
import RemoteAgent.Proofs.Text.Path
import RemoteAgent.Socket.Network

/-! Places: where in a network a path leads, and which sockets of channels stand at one place. -/

namespace RemoteAgent

def Text.Path.Plain (path : String) : Prop :=
  '/' ∉ path.toList ∧ (path ≠ "" ∧ path ≠ ".") ∧ path ≠ ".."

instance (path : String) : Decidable (Text.Path.Plain path) := inferInstanceAs (Decidable (_ ∧ _))

namespace Socket.Network

open Text.Path

variable {n : Network} {path path' : String} {place place' : List String}

theorem resolve_append (directories : List (List String)) (here xs ys : List String) :
    resolve directories here (xs ++ ys) =
      (resolve directories here xs).bind fun there => resolve directories there ys := by
  induction xs generalizing here with
  | nil => rfl
  | cons x xs ih =>
    rw [List.cons_append, resolve, resolve]
    split
    · rfl
    · exact ih _

theorem resolve_of_plain (h : Plain path) (directories : List (List String)) (here : List String) :
    resolve directories here (names path) =
      if here ≠ [] ∧ here ∉ directories then none else some (here ++ [path]) := by
  rw [names_of_plain h.1 h.2.1, resolve, resolve, if_neg h.2.2]

theorem locate_of_plain (h : Plain path) (hroot : n.directories.headD [] = []) :
    n.locate path = some [path] := by
  have horigin : n.origin path = [] := by
    rw [origin, isAbsolute_of_plain h.1, hroot]
    rfl
  rw [locate, horigin, resolve_of_plain h, if_neg fun hne => hne.1 rfl]
  rfl

theorem locate_join (h : isAbsolute path = false) (n : Network) (dir : String) :
    n.locate (join dir path) =
      (n.locate dir).bind fun here => resolve n.directories here (names path) := by
  rw [locate, origin, isAbsolute_join h, names_join h, resolve_append]
  rfl

theorem locate_join_of_plain (h : Plain path) (dir : String)
    (hplace : n.locate (join dir path) = some place) :
    ∃ here, n.locate dir = some here ∧ place = here ++ [path] := by
  rw [locate_join (isAbsolute_of_plain h.1), Option.bind_eq_some_iff] at hplace
  obtain ⟨here, hhere, hplace⟩ := hplace
  rw [resolve_of_plain h] at hplace
  split at hplace
  · cases hplace
  · exact ⟨here, hhere, (Option.some.inj hplace).symm⟩

theorem locate_join_eq_iff {dir : String} (h : Plain path) (h' : Plain path')
    (hplace : n.locate (join dir path) = some place)
    (hplace' : n.locate (join dir path') = some place') :
    n.locate (join dir path) = n.locate (join dir path') ↔ path = path' := by
  obtain ⟨here, hhere, rfl⟩ := locate_join_of_plain h dir hplace
  obtain ⟨here', hhere', rfl⟩ := locate_join_of_plain h' dir hplace'
  have hsame : here = here' := Option.some.inj (hhere.symm.trans hhere')
  rw [hplace, hplace', hsame, Option.some_inj, List.append_cancel_left_eq, List.singleton_inj]

end Socket.Network

namespace Channel.Name

open Text.Path

variable {name name' : Name}

theorem slash_not_mem_toString (n : Nat) : '/' ∉ (toString n).toList := by
  rw [Nat.toString_eq_ofList_toDigits, String.toList_ofList]
  intro hmem
  have hdigit := Nat.isDigit_of_mem_toDigits (by decide) (by decide) hmem
  exact absurd hdigit (by decide)

theorem plain_socket (h : '/' ∉ name.lead.toList) : Plain (name.text ++ ".sock") := by
  have hlist : (name.text ++ ".sock").toList =
      name.lead.toList ++ (toString name.pid).toList ++ ['.', 's', 'o', 'c', 'k'] := by
    rw [text, String.toList_append, String.toList_append]
    rfl
  have hlong : ∀ short : String, short.length < 5 → name.text ++ ".sock" ≠ short := by
    intro short hshort heq
    have hfive : ".sock".length = 5 := by decide
    rw [← heq, String.length_append, hfive] at hshort
    omega
  refine ⟨fun hmem => ?_, ⟨hlong "" (by decide), hlong "." (by decide)⟩, hlong ".." (by decide)⟩
  rw [hlist, List.mem_append, List.mem_append] at hmem
  rcases hmem with (hlead | hpid) | hsock
  · exact h hlead
  · exact slash_not_mem_toString name.pid hpid
  · exact absurd hsock (by decide)

theorem socket_inj (hpid : name.pid = name'.pid) :
    name.text ++ ".sock" = name'.text ++ ".sock" ↔ name.lead = name'.lead := by
  rw [text, text, hpid, String.append_left_inj, String.append_left_inj]

/-- The sockets of two channels of one process in one directory stand at different places if what the
names of the channels begin with is different. -/
theorem locate_socketPath_eq_iff {n : Socket.Network} {place place' : List String}
    (hdir : name.dir = name'.dir) (hpid : name.pid = name'.pid) (h : '/' ∉ name.lead.toList)
    (h' : '/' ∉ name'.lead.toList) (hplace : n.locate name.socketPath = some place)
    (hplace' : n.locate name'.socketPath = some place') :
    n.locate name.socketPath = n.locate name'.socketPath ↔ name.lead = name'.lead := by
  rw [socketPath, hdir] at hplace ⊢
  rw [socketPath] at hplace' ⊢
  rw [Socket.Network.locate_join_eq_iff (plain_socket h) (plain_socket h') hplace hplace',
    socket_inj hpid]

end Channel.Name

end RemoteAgent
