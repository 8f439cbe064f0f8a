import RemoteAgent.Controller.Call
import RemoteAgent.Proofs.Channel.Idle

/-! Calls one after another. Each call whose request goes out takes one frame off the stream, whatever
becomes of that frame, so that replies stay in step with requests. Only of a frame over the limit no
more than the header is taken: the next call finds the payload where it looks for a frame. -/

namespace RemoteAgent

open RemoteAgent.Action

namespace Controller.Call

open Channel

variable {α : Type} {c : Call α} {cs : List (Call α)} {l : Link} {ps : List (List UInt8)}

theorem run_of_unsent {e : Error} (h : (send c.request l).result = .error e) :
    (c.run l).result = .error e ∧ (c.run l).state = (send c.request l).state := bind_of_failure h

theorem run_of_sent (h : (send c.request l).result = .ok ()) :
    (c.run l).result = (receive (send c.request l).state).result.bind c.read ∧
      (c.run l).state = (receive (send c.request l).state).state := by
  obtain ⟨hresult, hstate⟩ := @bind_of_result _ _ _ (send c.request)
    (fun _ => do
      let reply ← receive
      Action.ofExcept (c.read reply)) l () h
  rw [run, hresult, hstate]
  cases hr : (receive (send c.request l).state).result with
  | error e => exact bind_of_failure hr
  | ok m =>
    obtain ⟨hresult', hstate'⟩ := @bind_of_result _ _ _ _ (fun m => ofExcept (c.read m)) _ m hr
    rw [hresult', hstate', ofExcept_apply]
    exact ⟨rfl, rfl⟩

/-- The link after calls in a row. A call that fails does not keep the next one from being made. -/
def after (cs : List (Call α)) (l : Link) : Link := cs.foldl (fun l c => (c.run l).state) l

theorem after_singleton (c : Call α) (l : Link) : after [c] l = (c.run l).state := rfl

def asked : List (Call α) → Link → Nat
  | [], _ => 0
  | c :: cs, l =>
    (if (send c.request l).result.isOk then 1 else 0) + asked cs (c.run l).state

theorem asked_cons_of_sent (h : (send c.request l).result = .ok ()) :
    asked (c :: cs) l = asked cs (c.run l).state + 1 := by
  rw [asked, h, Nat.add_comm]
  rfl

theorem asked_cons_of_unsent {e : Error} (h : (send c.request l).result = .error e) :
    asked (c :: cs) l = asked cs (c.run l).state := by
  rw [asked, h]
  exact Nat.zero_add _

theorem maxMessageSize_run (c : Call α) (l : Link) :
    (c.run l).state.maxMessageSize = l.maxMessageSize := by
  cases h : (send c.request l).result with
  | error e => rw [(run_of_unsent h).2, maxMessageSize_send]
  | ok u => rw [(run_of_sent h).2, maxMessageSize_receive, maxMessageSize_send]

theorem run_of_frame {p rest : List UInt8} (hsent : (send c.request l).result = .ok ())
    (hp : p.length ≤ l.maxMessageSize) (hlt : p.length < 2 ^ 32)
    (hs : l.stream.Delivers (frame p ++ rest)) :
    (c.run l).result = (Message.decode p).bind c.read ∧ (c.run l).state.stream.Delivers rest := by
  rw [← maxMessageSize_send c.request l] at hp
  obtain ⟨s, es, hrec, hrest⟩ := receive_of_frame hp hlt (delivers_send c.request hs)
  rw [(run_of_sent hsent).1, (run_of_sent hsent).2, hrec]
  exact ⟨rfl, hrest⟩

theorem run_of_overlong {p rest : List UInt8} (hsent : (send c.request l).result = .ok ())
    (hp : l.maxMessageSize < p.length) (hlt : p.length < 2 ^ 32)
    (hs : l.stream.Delivers (frame p ++ rest)) :
    (c.run l).result = .error (.frameTooLarge p.length l.maxMessageSize) ∧
      (c.run l).state.stream.Delivers (p ++ rest) := by
  have hmax := maxMessageSize_send c.request l
  rw [← hmax] at hp ⊢
  obtain ⟨hrec, hrest⟩ := receive_of_overlong hp hlt (delivers_send c.request hs)
  rw [(run_of_sent hsent).1, (run_of_sent hsent).2, hrec]
  exact ⟨rfl, hrest⟩

theorem run_of_nothing (hsent : (send c.request l).result = .ok ()) (hs : l.stream.Delivers []) :
    (c.run l).result = .error (.channelIo .unexpectedEnd) ∧
      (c.run l).state.stream.Delivers [] := by
  have hs := delivers_send c.request hs
  rw [(run_of_sent hsent).1, (run_of_sent hsent).2, (receive_of_nothing hs).1]
  exact ⟨rfl, delivers_of_nothing hs⟩

theorem delivers_after (hs : l.stream.Delivers (ps.flatMap frame))
    (hlt : ∀ p ∈ ps, p.length < 2 ^ 32)
    (hfit : ∀ p ∈ ps.take (asked cs l), p.length ≤ l.maxMessageSize) :
    (after cs l).stream.Delivers ((ps.drop (asked cs l)).flatMap frame) ∧
      (after cs l).maxMessageSize = l.maxMessageSize := by
  induction cs generalizing ps l with
  | nil => exact ⟨hs, rfl⟩
  | cons c cs ih =>
    have hmax := maxMessageSize_run c l
    rw [after, List.foldl_cons, ← after, ← hmax]
    cases hsent : (send c.request l).result with
    | error e =>
      rw [asked_cons_of_unsent hsent] at hfit ⊢
      have hs : (c.run l).state.stream.Delivers (ps.flatMap frame) := by
        rw [(run_of_unsent hsent).2]
        exact delivers_send c.request hs
      exact ih hs hlt (hmax ▸ hfit)
    | ok u =>
      rw [asked_cons_of_sent hsent] at hfit ⊢
      cases ps with
      | nil =>
        rw [List.drop_nil]
        have hnext := @ih (c.run l).state [] (run_of_nothing hsent hs).2 hlt
        rw [List.take_nil, List.drop_nil] at hnext
        exact hnext fun p hp => (List.not_mem_nil hp).elim
      | cons p ps =>
        rw [List.take_succ_cons] at hfit
        have hp := hfit p List.mem_cons_self
        rw [List.flatMap_cons] at hs
        exact ih (run_of_frame hsent hp (hlt p List.mem_cons_self) hs).2
          (fun q hq => hlt q (List.mem_cons_of_mem p hq))
          fun q hq => hmax ▸ hfit q (List.mem_cons_of_mem p hq)

theorem conveys_run {n : Nat} (h : ∀ n, l.stream.Conveys n) (hfit : c.request.FitsIn l.maxMessageSize) :
    (send c.request l).result = .ok () ∧ (c.run l).state.stream.Conveys n := by
  obtain ⟨p, hp, hle⟩ := hfit
  obtain ⟨s, es, hsend, -, hconveys⟩ := send_of_conveys hp hle (h ((frame p).length + n))
  have hsent : (send c.request l).result = .ok () := by rw [hsend]
  refine ⟨hsent, ?_⟩
  rw [(run_of_sent hsent).2]
  exact conveys_receive (by rw [hsend]; exact hconveys)

theorem asked_eq_length (hconveys : ∀ n, l.stream.Conveys n)
    (hfit : ∀ c ∈ cs, c.request.FitsIn l.maxMessageSize) : asked cs l = cs.length := by
  induction cs generalizing l with
  | nil => rfl
  | cons c cs ih =>
    have hc := hfit c List.mem_cons_self
    rw [asked_cons_of_sent (conveys_run (n := 0) hconveys hc).1, List.length_cons,
      ih (fun n => (conveys_run hconveys hc).2) fun d hd => ?_]
    rw [maxMessageSize_run]
    exact hfit d (List.mem_cons_of_mem c hd)

/-- A call that gives a value has read it from the frame that came for its request, as long as no
frame before that was over the limit. Where all requests go out it is the frame of the call's own
number. -/
theorem read_of_run {a : α} (hs : l.stream.Delivers (ps.flatMap frame))
    (hlt : ∀ p ∈ ps, p.length < 2 ^ 32)
    (hfit : ∀ p ∈ ps.take (asked cs l), p.length ≤ l.maxMessageSize)
    (hok : (c.run (after cs l)).result = .ok a) :
    (∃ p m, ps[asked cs l]? = some p ∧ Message.decode p = .ok m ∧ c.read m = .ok a) ∧
      ((∀ n, l.stream.Conveys n) → (∀ d ∈ cs, d.request.FitsIn l.maxMessageSize) →
        asked cs l = cs.length) := by
  refine ⟨?_, asked_eq_length⟩
  obtain ⟨hnext, hmax⟩ := delivers_after hs hlt hfit
  cases hsent : (send c.request (after cs l)).result with
  | error e =>
    rw [(run_of_unsent hsent).1] at hok
    cases hok
  | ok u =>
    cases hrest : ps.drop (asked cs l) with
    | nil =>
      rw [hrest] at hnext
      rw [(run_of_nothing hsent hnext).1] at hok
      cases hok
    | cons p rest =>
      have hp : ps[asked cs l]? = some p := by
        rw [← List.head?_drop, hrest]
        rfl
      have hshort := hlt p (List.mem_of_getElem? hp)
      rw [hrest, List.flatMap_cons] at hnext
      rcases Nat.lt_or_ge (after cs l).maxMessageSize p.length with hlong | hle
      · rw [(run_of_overlong hsent hlong hshort hnext).1] at hok
        cases hok
      · rw [(run_of_frame hsent hle hshort hnext).1] at hok
        cases hm : Message.decode p with
        | error e =>
          rw [hm] at hok
          cases hok
        | ok m =>
          rw [hm] at hok
          exact ⟨p, m, hp, hm, hok⟩

theorem read_of_run_second :
    let ps : List (List UInt8) := [[2, 0, 0, 0, 1, 0, 0, 0, 0], [1, 0, 0, 0, 1]]
    let l : Link := { stream := Stream.ofBytes (ps.flatMap frame) }
    (isValid.run l).result = .error (.unexpectedMessage .status .statusWithValue) ∧
      (isValid.run (after [isValid] l)).result = .ok true ∧ asked [isValid] l = 1 ∧
      ∃ p m, ps[1]? = some p ∧ Message.decode p = .ok m ∧ readStatus m = .ok true := by
  intro ps l
  have hs : l.stream.Delivers (ps.flatMap frame) := Stream.delivers_ofBytes _
  have hconveys : ∀ n, l.stream.Conveys n := Stream.conveys_ofBytes _
  have hfit : isValid.request.FitsIn l.maxMessageSize := ⟨[4, 0, 0, 0], rfl, by decide⟩
  obtain ⟨hsent, -⟩ := conveys_run (n := 0) hconveys hfit
  obtain ⟨hfirst, hnext⟩ := run_of_frame hsent (by decide) (by decide) hs
  have hmax : (isValid.run l).state.maxMessageSize = l.maxMessageSize := maxMessageSize_run isValid l
  obtain ⟨hsent', -⟩ := conveys_run (n := 0) (c := isValid) (fun n => (conveys_run hconveys hfit).2)
    (hmax ▸ hfit)
  obtain ⟨hsecond, -⟩ := run_of_frame hsent' (by rw [hmax]; decide) (by decide) hnext
  rw [← after_singleton] at hsecond
  have hshort : ∀ p ∈ ps, p.length ≤ l.maxMessageSize := by decide
  obtain ⟨hread, hasked⟩ := read_of_run hs (by decide)
    (fun p hp => hshort p (List.mem_of_mem_take hp)) hsecond
  have hasked := hasked hconveys fun d hd => List.mem_singleton.1 hd ▸ hfit
  rw [hasked] at hread
  exact ⟨hfirst, hsecond, hasked, hread⟩

theorem run_of_straddled {d : Call α} {p tail rest : List UInt8} (hconveys : ∀ n, l.stream.Conveys n)
    (hc : c.request.FitsIn l.maxMessageSize) (hd : d.request.FitsIn l.maxMessageSize)
    (hp : p.length ≤ l.maxMessageSize) (hlong : l.maxMessageSize < (frame p ++ tail).length)
    (hlt : (frame p ++ tail).length < 2 ^ 32)
    (hs : l.stream.Delivers (frame (frame p ++ tail) ++ rest)) :
    (c.run l).result = .error (.frameTooLarge (frame p ++ tail).length l.maxMessageSize) ∧
      (d.run (c.run l).state).result = (Message.decode p).bind d.read := by
  have hmax := maxMessageSize_run c l
  obtain ⟨hfirst, hnext⟩ := run_of_overlong (conveys_run (n := 0) hconveys hc).1 hlong hlt hs
  have hsent : (send d.request (c.run l).state).result = .ok () :=
    (conveys_run (n := 0) (fun n => (conveys_run hconveys hc).2) (hmax ▸ hd)).1
  have hshort : p.length < 2 ^ 32 := by
    rw [List.length_append, frame, List.length_append] at hlt
    omega
  rw [List.append_assoc] at hnext
  exact ⟨hfirst, (run_of_frame hsent (hmax ▸ hp) hshort hnext).1⟩

/-- The payload of the first frame is over the limit, and what the second call reads stands in it and
not in the second frame. -/
theorem run_of_straddled_status :
    let p : List UInt8 := frame [1, 0, 0, 0, 0] ++ List.replicate defaultMaxMessageSize 0
    let q : List UInt8 := [1, 0, 0, 0, 1]
    let l : Link := { stream := Stream.ofBytes ([p, q].flatMap frame) }
    (isValid.run l).result = .error (.frameTooLarge p.length defaultMaxMessageSize) ∧
      (isValid.run (after [isValid] l)).result = .ok false ∧
      (Message.decode q).bind readStatus = .ok true := by
  have hzeros : (List.replicate defaultMaxMessageSize (0 : UInt8)).length = defaultMaxMessageSize :=
    List.length_replicate
  generalize List.replicate defaultMaxMessageSize (0 : UInt8) = zeros at hzeros ⊢
  intro p q l
  have hfront : (frame [1, 0, 0, 0, 0]).length = 9 := rfl
  have hlength : p.length = 9 + defaultMaxMessageSize := by
    rw [List.length_append, hzeros, hfront]
  have hframes : [p, q].flatMap frame = frame p ++ frame q := by
    rw [List.flatMap_cons, List.flatMap_singleton]
  have hs : l.stream.Delivers (frame p ++ frame q) := hframes ▸ Stream.delivers_ofBytes _
  have hmax : l.maxMessageSize = defaultMaxMessageSize := rfl
  have hfit : isValid.request.FitsIn l.maxMessageSize :=
    ⟨[4, 0, 0, 0], rfl, by rw [hmax]; decide⟩
  obtain ⟨hfirst, hsecond⟩ := run_of_straddled (Stream.conveys_ofBytes _) hfit hfit
    (by rw [hmax]; decide) (by rw [hmax, hlength]; decide) (by rw [hlength]; decide) hs
  rw [hmax] at hfirst
  refine ⟨hfirst, ?_, rfl⟩
  rw [after_singleton, hsecond]
  rfl

end Controller.Call

end RemoteAgent
