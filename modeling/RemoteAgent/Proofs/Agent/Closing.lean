import RemoteAgent.Proofs.Agent.Start
import RemoteAgent.Proofs.Bridge.Traffic
import RemoteAgent.Proofs.Channel.Door

/-! The end of an agent. It is asked to stop while its two services wait for controllers or serve
them, while controllers connect, send and hang up, and while native threads call over the bridge. Each
service and the one that ends the agent moves one look at shared state or one operation on a channel at
a time, in any order. The thread of the command service is a native thread as well while its controller
has it call native code, which may call over the bridge. -/

namespace RemoteAgent.Agent

open RemoteAgent.Action Channel Socket Service

structure Guest where
  connection : Nat
  -- the services had been asked to stop when it was accepted
  late : Bool
  deriving DecidableEq

inductive Post where
  | testing
  | offering
  | blocked
  | taken (g : Guest)
  -- the wait has failed: whether it is to stop, or its channel is closed
  | refused
  | doubting
  -- the wait has given a stream: the second look whether it is to stop
  | greeted (g : Guest)
  | dismissing (g : Guest)
  | admitted (g : Guest)
  -- the command service answers requests; the data service has attached a session, and looks again
  -- and again whether it is to stop, the session has failed or the peer has gone
  | serving (g : Guest) (session : Option Nat)
  | watching (g : Guest) (session : Nat)
  | probing (g : Guest) (session : Nat)
  | ending (g : Guest) (session : Nat)
  | detached (g : Guest) (session : Nat)
  -- the command service is in native code that its controller calls
  | calling (g : Guest)
  | parting (g : Guest) (broken : Bool)
  | leaving (g : Guest)
  | done
  deriving DecidableEq

inductive Closer where
  | resting
  | disconnecting (k : Kind)
  | waking (k : Kind)
  | joining (k : Kind)
  | closing (k : Kind)
  | returned
  deriving DecidableEq

namespace Closer

/-- The command channel comes first, whatever is done. -/
def next : Closer → Closer
  | resting => disconnecting .command
  | disconnecting k => waking k
  | waking .command => disconnecting .data
  | waking .data => joining .command
  | joining .command => joining .data
  | joining .data => closing .command
  | closing .command => closing .data
  | closing .data => returned
  | returned => returned

def course : List Closer :=
  [resting, disconnecting .command, waking .command, disconnecting .data, waking .data,
    joining .command, joining .data, closing .command, closing .data, returned]

def rank (c : Closer) : Nat := course.idxOf c

def kind : Closer → Option Kind
  | disconnecting k => some k
  | waking k => some k
  | joining k => some k
  | closing k => some k
  | _ => none

def Past (c c' : Closer) : Prop := c'.rank < c.rank

instance (c c' : Closer) : Decidable (c.Past c') := inferInstanceAs (Decidable (_ < _))

theorem rank_next {c : Closer} (h : c ≠ returned) : c.next.rank = c.rank + 1 := by
  cases c with
  | returned => exact (h rfl).elim
  | resting => decide
  | _ k => cases k <;> decide

theorem rank_injective : Function.Injective rank := by
  intro c c' h
  have hmember : c ∈ course := by
    cases c with
    | resting => decide
    | returned => decide
    | _ k => cases k <;> decide
  exact (List.idxOf_inj hmember).1 h

theorem past_next {c c' : Closer} (h : c ≠ c') : c.next.Past c' ↔ c.Past c' := by
  have hrank : c'.rank ≠ c.rank := fun heq => h (rank_injective heq).symm
  by_cases hlast : c = returned
  · subst hlast
    exact Iff.rfl
  · rw [Past, Past, rank_next hlast]
    omega

theorem past_next_self {c : Closer} (h : c ≠ returned) : c.next.Past c := by
  rw [Past, rank_next h]
  exact Nat.lt_succ_self _

theorem not_past_self (c : Closer) : ¬ c.Past c := Nat.lt_irrefl _

theorem ne_resting_of_past {c c' : Closer} (h : c.Past c') : c ≠ resting := by
  rintro rfl
  exact Nat.not_lt_zero _ h

theorem past_joining_of_past_closing {c : Closer} {k : Kind} (h : c.Past (closing k)) :
    c.Past (joining k) := by
  refine Nat.lt_trans ?_ h
  cases k <;> decide

end Closer

structure World where
  hub : Hub
  -- the data connection that the data service gets next, which nothing has come over
  line : Link
  traffic : Bridge.Traffic := {}
  stopping : Bool := false
  posts : Kind → Post := fun _ => .testing
  closer : Closer := .resting
  -- the streams that each channel has given out
  handed : Kind → List Nat := fun _ => []
  -- those whose sessions have begun
  served : Kind → List Guest := fun _ => []

inductive Move where
  | service (k : Kind) (amiss : Bool)
  | closer
  | ask
  | enter
  | leave
  | traffic (m : Bridge.Move)
  | deed (d : Deed)

namespace Post

def stage : Post → Door.Stage
  | blocked => .blocked
  | taken g => .taken g.connection
  | _ => .outside

def host : Post → Option Guest
  | greeted g => some g
  | dismissing g => some g
  | admitted g => some g
  | serving g _ => some g
  | watching g _ => some g
  | probing g _ => some g
  | ending g _ => some g
  | detached g _ => some g
  | calling g => some g
  | parting g _ => some g
  | leaving g => some g
  | _ => none

def inside : Post → Option Guest
  | admitted g => some g
  | serving g _ => some g
  | watching g _ => some g
  | probing g _ => some g
  | ending g _ => some g
  | detached g _ => some g
  | calling g => some g
  | parting g _ => some g
  | leaving g => some g
  | _ => none

def guest : Post → Option Guest
  | taken g => some g
  | p => p.host

def session : Post → Option Nat
  | serving _ s => s
  | watching _ s => some s
  | probing _ s => some s
  | ending _ s => some s
  | _ => none

def Waits : Post → Prop
  | offering => True
  | blocked => True
  | _ => False

def isCalling : Post → Bool
  | calling _ => true
  | _ => false

def ahead : Post → Nat
  | done => 0
  | testing => 1
  | dismissing _ => 1
  | doubting => 2
  | greeted _ => 2
  | leaving _ => 2
  | refused => 3
  | parting _ _ => 3
  | taken _ => 4
  | detached _ _ => 4
  | blocked => 5
  | ending _ _ => 5
  | offering => 6
  | serving _ _ => 6
  | calling _ => 7
  | probing _ _ => 7
  | watching _ _ => 8
  | admitted _ => 7

end Post

namespace World

variable (r : Running) (k : Kind)

def place (p : Post) (w : World) : World := { w with posts := Function.update w.posts k p }

def door (w : World) : Door := ⟨w.hub, (w.posts k).stage, w.handed k⟩

def through (d : Door) (w : World) : World :=
  { w with hub := d.hub, handed := Function.update w.handed k d.handed }

def act (m : Door.Move) (w : World) : World :=
  w.through k ((w.door k).move (r.channel k) m).2

def wait (m : Door.Move) (p : Door.Stage → Post) (w : World) : World :=
  match (w.door k).move (r.channel k) m with
  | (.ok (), d) => (w.through k d).place k (p d.stage)
  | (.error _, d) => (w.through k d).place k .refused

def begin (g : Guest) (w : World) : World :=
  let w := { w with served := Function.update w.served k (w.served k ++ [g]) }
  match k with
  | .command => w.place .command (.serving g none)
  | .data => { w with traffic := w.traffic.connect w.line }.place .data
      (.serving g (some w.traffic.bridge.sessions.length))

def serve (amiss : Bool) (w : World) : World :=
  match w.posts k with
  | .testing => w.place k (if w.stopping then .done else .offering)
  | .offering => w.wait r k .check fun _ => .blocked
  | .blocked =>
    if amiss then w.place k .refused
    else w.wait r k .accept fun
      | .taken x => .taken ⟨x, w.stopping⟩
      | _ => .blocked
  | .taken g =>
    if amiss then (w.act r k (.cloneFails OsError.tooManyFiles.toIoError)).place k .refused
    else w.wait r k .commit fun _ => .greeted g
  | .refused => w.place k (if w.stopping then .done else .doubting)
  | .doubting => w.place k (if (w.hub.stateOf (r.channel k)).isTerminal then .done else .testing)
  | .greeted g => w.place k (if w.stopping then .dismissing g else .admitted g)
  | .dismissing _ => (w.act r k .disconnect).place k .done
  | .admitted g => w.begin k g
  | .serving g none => w.place k (.parting g amiss)
  | .serving g (some s) => w.place k (if w.stopping then .ending g s else .watching g s)
  | .watching g s =>
    w.place k (if w.traffic.bridge.isFailed s then .ending g s else .probing g s)
  | .probing g s =>
    (w.act r k .isConnected).place k
      (if (Hub.isConnected (r.channel k) w.hub).result.toOption = some true then .serving g (some s)
        else .ending g s)
  | .ending g s =>
    { w with traffic := w.traffic.step (.detachSession s) }.place k (.detached g s)
  | .detached g s => w.place k (.parting g (w.traffic.bridge.isFailed s))
  | .parting g broken => (if broken then w.act r k .markBroken else w).place k (.leaving g)
  | .leaving _ => (w.act r k .disconnect).place k .testing
  | .calling _ => w
  | .done => w

def close (w : World) : World :=
  match w.closer with
  | .resting => { w with stopping := true, closer := w.closer.next }
  | .disconnecting k => { w.act r k .disconnect with closer := w.closer.next }
  | .waking k =>
    { w with hub := (Hub.connect (r.name k) w.hub).state, closer := w.closer.next }
  | .joining k => if w.posts k = .done then { w with closer := w.closer.next } else w
  | .closing k => { w.act r k .drop with closer := w.closer.next }
  | .returned => w

def caller : Nat := 0

def comeBack (w : World) : World :=
  match w.posts .command, w.traffic.stages caller with
  | .calling g, .idle => w.place .command (.serving g none)
  | _, _ => w

def step (m : Move) (w : World) : World :=
  match m with
  | .service k amiss => w.serve r k amiss
  | .closer => w.close r
  | .ask => { w with stopping := true }
  | .enter =>
    match w.posts .command with
    | .serving g _ => w.place .command (.calling g)
    | _ => w
  | .leave => w.comeBack
  | .traffic (.connect _) => w
  | .traffic (.call t name args) =>
    if t = caller ∧ (w.posts .command).isCalling = false then w
    else { w with traffic := w.traffic.step (.call t name args) }
  | .traffic m => { w with traffic := w.traffic.step m }
  | .deed d => { w with hub := w.hub.renet (d.onNetwork w.hub.network) }

def run (ms : List Move) (w : World) : World := ms.foldl (fun w m => w.step r m) w

end World

end RemoteAgent.Agent
