import Mathlib.Data.List.Infix
import SyncEngine.Util.Runs

/-! The pool that lends IMAP connections to greenlets, and the exceptions after which a connection
is put back or discarded. -/
namespace SyncEngine
namespace Crispin
namespace Pool

/-- What can be raised where a greenlet waits; `imapError` and `imapAbort` are the two of `imaplib`,
`timeout` is gevent's. -/
inductive Fault where
  | socketError
  | sslError
  | certificateError
  | imapError
  | imapAbort
  | attributeError
  | error
  | greenletExit
  | timeout
deriving DecidableEq, Repr

inductive Exc where
  /-- The IMAP error of `conn.idle` whose message starts with `Unexpected IDLE response`. -/
  | unexpectedIdle
  | fault (fault : Fault)
deriving DecidableEq, Repr

namespace Fault

/-- `CONN_DISCARD_EXC_CLASSES` -/
def discards : Fault → Bool
  | .socketError | .sslError | .certificateError | .imapError | .imapAbort => true
  | _ => false

/-- `CONN_UNUSABLE_EXC_CLASSES` -/
def unusable : Fault → Bool
  | .socketError | .sslError | .certificateError | .imapAbort => true
  | _ => false

/-- What `except Exception` catches. -/
def isException : Fault → Bool
  | .greenletExit | .timeout => false
  | _ => true

end Fault

namespace Exc

def discards : Exc → Bool
  | .unexpectedIdle => true
  | .fault raised => raised.discards

def unusable : Exc → Bool
  | .unexpectedIdle => false
  | .fault raised => raised.unusable

def isException : Exc → Bool
  | .unexpectedIdle => true
  | .fault raised => raised.isException

end Exc

/-! ## One connection -/

/-- What is under way on a connection. -/
inductive Wire where
  /-- The normal command state: nothing is outstanding. -/
  | normal
  | outstanding
  /-- IDLE was sent, and the server has not said that it idles. -/
  | starting
  | idling
deriving DecidableEq, Repr

/-- How one exchange with the server goes. -/
inductive Outcome where
  | completes
  /-- The tagged response is NO or BAD. -/
  | refused
  /-- IDLE is answered with something else than the continuation. -/
  | unexpected
  /-- An exception, before anything was sent or after. -/
  | fails (fault : Fault) (sent : Bool)
deriving DecidableEq, Repr

abbrev Io := ExceptT Exc (StateM Wire)

def command : Outcome → Io Unit
  | .completes | .unexpected => pure ()
  | .refused => throw (.fault .imapError)
  | .fails fault sent => do
    if sent then set Wire.outstanding
    throw (.fault fault)

/-- IDLE is sent; what was outstanding before stays so. -/
def sendIdle (after : Wire) : Io Unit :=
  modify fun wire => if wire = .normal then after else .outstanding

/-- `conn.idle` -/
def connIdle : Outcome → Io Unit
  | .completes => sendIdle .idling
  | .refused | .unexpected => do
    sendIdle .starting
    throw .unexpectedIdle
  | .fails fault sent => do
    if sent then sendIdle .starting
    throw (.fault fault)

/-- `conn.idle_check`: nothing is sent, and the server idles on. -/
def idleCheck : Outcome → Io Unit
  | .fails fault _ => throw (.fault fault)
  | _ => pure ()

/-- The tagged response of IDLE has come. -/
def endIdle : Io Unit := modify fun wire => if wire = .outstanding then .outstanding else .normal

/-- `conn.idle_done`: DONE is sent, and the tagged response awaited. -/
def idleDone : Outcome → Io Unit
  | .completes | .unexpected => endIdle
  | .refused => do
    endIdle
    throw (.fault .imapError)
  | .fails fault sent => do
    if sent then set Wire.outstanding
    throw (.fault fault)

/-- How the exchanges of one call go, in turn. -/
structure Script where
  first : Outcome
  check : Outcome
  done : Outcome
  again : Outcome
deriving DecidableEq, Repr

/-- `CrispinClient.idle` -/
def idle (script : Script) : Io Unit := do
  connIdle script.first
  try idleCheck script.check
  catch exc =>
    idleDone script.done
    throw exc
  idleDone script.done

/-- What `poll_impl` does to idle. -/
def pollIdle (script : Script) : Io Unit := do
  try idle script
  catch exc =>
    if exc = .unexpectedIdle then
      -- Still have to take the connection out of IDLE mode to reuse it though.
      try idleDone script.again
      catch exc =>
        if exc = .fault .attributeError then pure ()
        else throw exc
    else throw exc

inductive Call where
  | command
  /-- Work that does not use the connection, such as a transaction. -/
  | elsewhere
  | pollIdle
deriving DecidableEq, Repr

def Call.run (call : Call) (script : Script) : Io Unit :=
  match call with
  | .command => Pool.command script.first
  | .elsewhere => idleCheck script.first
  | .pollIdle => Pool.pollIdle script

/-- The body of a `with` statement, with its handlers: it goes on from the result of each call. -/
inductive Body where
  | done
  | raise (exc : Exc)
  | call (call : Call) (next : Except Exc Unit → Body)

/-! ## The pool -/

structure Client where
  id : Nat
  wire : Wire
deriving DecidableEq, Repr

/-- A greenlet inside `get`, with its connection once it has one. -/
structure User where
  client : Option Client
  rest : Body

structure State where
  readonly : Bool
  /-- The value of the semaphore. -/
  sem : Nat
  queue : List (Option Client)
  users : List User
  nextId : Nat

namespace State

def initial (readonly : Bool) (numConnections : Nat) : State :=
  ⟨readonly, numConnections, List.replicate numConnections none, [], 0⟩

/-- `_logout`, after which the client is dropped, unless what was raised is no `Exception`. -/
def logout (client : Client) : Outcome → Option Client
  | .fails fault sent =>
    if fault.isException then none
    else some { client with wire := if sent then .outstanding else client.wire }
  | _ => none

/-- What `get` puts back when the body has ended. -/
def putBack (readonly : Bool) (client : Client) (raised : Option Exc) (outcome : Outcome) : Option Client :=
  match raised with
  | none => if readonly then some client else logout client outcome
  | some exc =>
    if exc.discards then
      if exc.unusable then none else logout client outcome
    else some client

def put (s : State) (k : Nat) (client : Option Client) : State :=
  { s with sem := s.sem + 1, queue := s.queue ++ [client], users := s.users.eraseIdx k }

/-- A greenlet acquires the semaphore, and takes what is first in the queue. -/
def enter (body : Body) (s : State) : State :=
  match s.sem, s.queue with
  | sem + 1, client :: queue => { s with sem, queue, users := s.users ++ [⟨client, body⟩] }
  | _, _ => s

/-- `_new_connection`, where the queue had none. -/
def connect (k : Nat) (fault : Option Fault) (s : State) : State :=
  match s.users[k]? with
  | some ⟨none, rest⟩ =>
    match fault with
    | none =>
      { s with users := s.users.set k ⟨some ⟨s.nextId, .normal⟩, rest⟩, nextId := s.nextId + 1 }
    | some _ => s.put k none
  | _ => s

/-- The next call of a body. -/
def call (k : Nat) (script : Script) (s : State) : State :=
  match s.users[k]? with
  | some ⟨some client, .call call next⟩ =>
    let (result, wire) := (call.run script).run.run client.wire
    { s with users := s.users.set k ⟨some { client with wire }, next result⟩ }
  | _ => s

/-- A body has ended. -/
def leave (k : Nat) (outcome : Outcome) (s : State) : State :=
  match s.users[k]? with
  | some ⟨some client, .done⟩ => s.put k (putBack s.readonly client none outcome)
  | some ⟨some client, .raise exc⟩ => s.put k (putBack s.readonly client (some exc) outcome)
  | _ => s

end State

inductive Turn where
  | enter (body : Body)
  | connect (k : Nat) (fault : Option Fault)
  | call (k : Nat) (script : Script)
  /-- `outcome` is that of the logout, where there is one. -/
  | leave (k : Nat) (outcome : Outcome)

def State.turn (s : State) : Turn → State
  | .enter body => s.enter body
  | .connect k fault => s.connect k fault
  | .call k script => s.call k script
  | .leave k outcome => s.leave k outcome

def run (readonly : Bool) (numConnections : Nat) (turns : List Turn) : State :=
  turns.foldl State.turn (State.initial readonly numConnections)

/-! ## What a call leaves behind -/

/-- The exception that strikes while a command is under way, while IDLE is, or while the connection
is taken out of it. -/
def Call.breaksOff : Call → Script → Option Fault
  | .command, script =>
    match script.first with
    | .fails fault true => some fault
    | _ => none
  | .elsewhere, _ => none
  | .pollIdle, script =>
    match script.first with
    | .fails fault true => some fault
    | .fails _ false => none
    | .completes =>
      match script.done with
      | .fails fault _ => some fault
      | _ => none
    | .refused | .unexpected =>
      match script.again with
      | .fails fault _ => some fault
      | _ => none

/-- `CrispinClient.idle`, where the server begins to idle: whatever ends the wait, the connection is
taken out of IDLE or that fails. -/
theorem pollIdle_idles (check done again : Outcome) :
    ((pollIdle ⟨.completes, check, done, again⟩).run.run .normal).2 = .normal ∨
      ∃ fault, (Call.pollIdle).breaksOff ⟨.completes, check, done, again⟩ = some fault ∧
        ((pollIdle ⟨.completes, check, done, again⟩).run.run .normal).1 = .error (.fault fault) := by
  cases done with
  | fails fault sent =>
    right
    refine ⟨fault, rfl, ?_⟩
    cases check <;> cases sent <;> rfl
  | _ =>
    left
    cases check <;> rfl

/-- A call takes the connection back to the normal command state, unless it is broken off. -/
theorem call_normal (call : Call) (script : Script)
    (discards : ∀ fault, call.breaksOff script = some fault → fault.discards) :
    ((call.run script).run.run .normal).2 = .normal ∨ ∃ fault, call.breaksOff script = some fault ∧
      ((call.run script).run.run .normal).1 = .error (.fault fault) := by
  obtain ⟨first, check, done, again⟩ := script
  cases call with
  | command =>
    cases first with
    | fails fault sent =>
      cases sent with
      | false => exact .inl rfl
      | true => exact .inr ⟨fault, rfl, rfl⟩
    | _ => exact .inl rfl
  | elsewhere => cases first <;> exact .inl rfl
  | pollIdle =>
    cases first with
    | completes => exact pollIdle_idles check done again
    | fails fault sent =>
      cases sent with
      | false => exact .inl rfl
      | true => exact .inr ⟨fault, rfl, rfl⟩
    | _ =>
      cases again with
      | fails fault sent =>
        have known := discards fault rfl
        refine .inr ⟨fault, rfl, ?_⟩
        cases fault with
        | attributeError => exact nomatch known
        | _ => cases sent <;> rfl
      | _ => exact .inl rfl

/-! ## Runs -/

/-- The condition on a turn. -/
def TurnFine (s : State) : Turn → Prop
  -- What breaks off an exchange is one of `CONN_DISCARD_EXC_CLASSES`, and the body lets it pass.
  | .call k script => ∀ user call next, s.users[k]? = some user → user.rest = .call call next →
      ∀ fault, call.breaksOff script = some fault →
        fault.discards ∧ next (.error (.fault fault)) = .raise (.fault fault)
  -- What breaks off a logout is an `Exception`; if nothing was sent, a normal connection may go back.
  | .leave k outcome => ∀ user client, s.users[k]? = some user → user.client = some client →
      ∀ fault sent, outcome = .fails fault sent →
        fault.isException ∨ sent = false ∧ client.wire = .normal
  | _ => True

def RunFine (readonly : Bool) (numConnections : Nat) (turns : List Turn) : Prop :=
  ∀ before turn, before ++ [turn] <+: turns → TurnFine (run readonly numConnections before) turn

/-- A connection that is in use is in the normal command state between two calls, or will be
discarded. -/
def User.Fine (user : User) : Prop :=
  ∀ client, user.client = some client →
    client.wire = .normal ∨ ∃ exc, user.rest = .raise exc ∧ exc.discards

/-- What waits in the queue can be handed out. -/
def State.Ready (s : State) : Prop := ∀ client, some client ∈ s.queue → client.wire = .normal

structure Fine (s : State) : Prop where
  ready : s.Ready
  users : ∀ user ∈ s.users, user.Fine

variable {s : State} {k : Nat}

theorem Fine.put (fine : Fine s) (k : Nat) {client : Option Client}
    (normal : ∀ back, client = some back → back.wire = .normal) : Fine (s.put k client) where
  ready back member := by
    rcases List.mem_append.mp member with before | new
    · exact fine.ready back before
    · exact normal back (List.mem_singleton.mp new).symm
  users user member := fine.users user (List.mem_of_mem_eraseIdx member)

theorem Fine.set (fine : Fine s) (k : Nat) {user : User} (other : user.Fine) :
    Fine { s with users := s.users.set k user } where
  ready := fine.ready
  users user member := by
    rcases List.mem_or_eq_of_mem_set member with before | rfl
    · exact fine.users user before
    · exact other

/-- A logout that no `GreenletExit` breaks off drops the connection, or leaves it as it was. -/
theorem logout_normal {client : Client} {outcome : Outcome}
    (fine : ∀ fault sent, outcome = .fails fault sent →
      fault.isException ∨ sent = false ∧ client.wire = .normal) :
    ∀ back, State.logout client outcome = some back → back.wire = .normal := by
  intro back same
  cases outcome with
  | fails fault sent =>
    unfold State.logout at same
    dsimp only at same
    by_cases caught : fault.isException
    · rw [if_pos caught] at same
      cases same
    · obtain ⟨rfl, normal⟩ := (fine fault sent rfl).resolve_left caught
      rw [if_neg caught] at same
      cases same
      exact normal
  | _ => cases same

theorem putBack_normal {client : Client} {raised : Option Exc} {outcome : Outcome} (readonly : Bool)
    (wire : client.wire = .normal ∨ ∃ exc, raised = some exc ∧ exc.discards)
    (fine : ∀ fault sent, outcome = .fails fault sent →
      fault.isException ∨ sent = false ∧ client.wire = .normal) :
    ∀ back, State.putBack readonly client raised outcome = some back → back.wire = .normal := by
  intro back same
  unfold State.putBack at same
  cases raised with
  | none =>
    have normal : client.wire = .normal := wire.resolve_right (by simp)
    dsimp only at same
    split_ifs at same
    · cases same
      exact normal
    · exact logout_normal fine back same
  | some exc =>
    dsimp only at same
    split_ifs at same with discards
    · exact logout_normal fine back same
    · cases same
      refine wire.resolve_right ?_
      rintro ⟨other, same, known⟩
      cases same
      exact discards known

theorem Fine.enter (fine : Fine s) (body : Body) : Fine (s.enter body) := by
  unfold State.enter
  split
  · rename_i sem first queue _ shape
    refine ⟨fun client member => fine.ready client (shape ▸ List.mem_cons_of_mem _ member), ?_⟩
    refine List.forall_mem_append.mpr ⟨fine.users, fun user added => ?_⟩
    obtain rfl := List.mem_singleton.mp added
    rintro client rfl
    exact .inl (fine.ready client (shape ▸ List.mem_cons_self))
  · exact fine

theorem Fine.connect (fine : Fine s) (k : Nat) (fault : Option Fault) : Fine (s.connect k fault) := by
  unfold State.connect
  split
  · rename_i rest _
    split
    · have fresh : User.Fine ⟨some ⟨s.nextId, .normal⟩, rest⟩ := by
        intro client same
        cases same
        exact .inl rfl
      have set := fine.set k fresh
      exact ⟨set.ready, set.users⟩
    · exact fine.put k fun back same => nomatch same
  · exact fine

theorem Fine.call (fine : Fine s) (k : Nat) (script : Script) (calm : TurnFine s (.call k script)) :
    Fine (s.call k script) := by
  unfold State.call
  split
  · rename_i client call next found
    have member := List.mem_of_getElem? found
    have normal : client.wire = .normal := by
      rcases fine.users _ member client rfl with normal | ⟨exc, raised, _⟩
      · exact normal
      · cases raised
    have breaks := calm _ call next found rfl
    have left := call_normal call script fun fault struck => (breaks fault struck).1
    apply fine.set k
    intro other same
    cases same
    rcases left with left | ⟨fault, struck, raised⟩
    · left
      show ((call.run script).run.run client.wire).2 = .normal
      rwa [normal]
    · obtain ⟨discards, passes⟩ := breaks fault struck
      right
      refine ⟨.fault fault, ?_, discards⟩
      show next ((call.run script).run.run client.wire).1 = _
      rw [normal, raised, passes]
  · exact fine

theorem Fine.leave (fine : Fine s) (k : Nat) (outcome : Outcome) (calm : TurnFine s (.leave k outcome)) :
    Fine (s.leave k outcome) := by
  unfold State.leave
  split
  · rename_i client found
    refine fine.put k (putBack_normal s.readonly ?_ (calm _ client found rfl))
    rcases fine.users _ (List.mem_of_getElem? found) client rfl with normal | ⟨exc, raised, _⟩
    · exact .inl normal
    · cases raised
  · rename_i client exc found
    refine fine.put k (putBack_normal s.readonly ?_ (calm _ client found rfl))
    rcases fine.users _ (List.mem_of_getElem? found) client rfl with normal | ⟨other, raised, discards⟩
    · exact .inl normal
    · cases raised
      exact .inr ⟨exc, rfl, discards⟩
  · exact fine

theorem Fine.turn (fine : Fine s) (turn : Turn) (calm : TurnFine s turn) : Fine (s.turn turn) := by
  cases turn with
  | enter body => exact fine.enter body
  | connect k fault => exact fine.connect k fault
  | call k script => exact fine.call k script calm
  | leave k outcome => exact fine.leave k outcome calm

theorem run_append (readonly : Bool) (numConnections : Nat) (turns : List Turn) (turn : Turn) :
    run readonly numConnections (turns ++ [turn]) = (run readonly numConnections turns).turn turn := by
  rw [run, List.foldl_append]
  rfl

theorem run_fine (fine : RunFine readonly numConnections turns) : Fine (run readonly numConnections turns) := by
  induction turns using List.reverseRecOn with
  | nil =>
    refine ⟨fun client member => ?_, fun user member => absurd member List.not_mem_nil⟩
    exact nomatch (List.eq_of_mem_replicate member).symm
  | append_singleton turns turn step =>
    rw [run_append]
    exact (step (Runs.prefixes_init fine)).turn turn (fine turns turn List.prefix_rfl)

/-- Where every turn meets its condition, no connection that waits to be handed out has a command
outstanding. -/
theorem pool_ready (readonly : Bool) (numConnections : Nat) (turns : List Turn)
    (fine : RunFine readonly numConnections turns) : (run readonly numConnections turns).Ready :=
  (run_fine fine).ready

/-- The semaphore counts the queue, so who has acquired it never waits for the queue. -/
def State.Balanced (s : State) (numConnections : Nat) : Prop :=
  s.sem = s.queue.length ∧ s.queue.length + s.users.length = numConnections

theorem State.Balanced.put {numConnections : Nat} (balanced : s.Balanced numConnections)
    (there : s.users[k]? = some user) (client : Option Client) :
    (s.put k client).Balanced numConnections := by
  obtain ⟨sem, total⟩ := balanced
  have inside : k < s.users.length := (List.getElem?_eq_some_iff.mp there).1
  have erased : (s.users.eraseIdx k).length = s.users.length - 1 := List.length_eraseIdx_of_lt inside
  constructor
  · simp only [State.put, List.length_append, List.length_singleton, sem]
  · simp only [State.put, List.length_append, List.length_singleton, erased]
    omega

theorem State.Balanced.turn {numConnections : Nat} (balanced : s.Balanced numConnections) (turn : Turn) :
    (s.turn turn).Balanced numConnections := by
  cases turn with
  | enter body =>
    simp only [State.turn, State.enter]
    split
    · rename_i sem first queue some shape
      obtain ⟨count, total⟩ := balanced
      rw [shape, List.length_cons] at count total
      constructor
      · show sem = queue.length
        omega
      · simp only [List.length_append, List.length_singleton]
        omega
    · exact balanced
  | connect k fault =>
    simp only [State.turn, State.connect]
    split
    · rename_i rest found
      split
      · obtain ⟨sem, total⟩ := balanced
        exact ⟨sem, by simpa only [List.length_set] using total⟩
      · exact balanced.put found none
    · exact balanced
  | call k script =>
    simp only [State.turn, State.call]
    split
    · obtain ⟨sem, total⟩ := balanced
      exact ⟨sem, (congrArg (s.queue.length + ·) List.length_set).trans total⟩
    · exact balanced
  | leave k outcome =>
    simp only [State.turn, State.leave]
    split
    · rename_i found
      exact balanced.put found _
    · rename_i found
      exact balanced.put found _
    · exact balanced

theorem pool_balanced (readonly : Bool) (numConnections : Nat) (turns : List Turn) :
    (run readonly numConnections turns).Balanced numConnections := by
  induction turns using List.reverseRecOn with
  | nil => exact ⟨List.length_replicate.symm, by simp [run, State.initial]⟩
  | append_singleton turns turn step =>
    rw [run_append]
    exact step.turn turn

theorem RunFine.append (fine : RunFine readonly numConnections turns) (turn : Turn)
    (next : TurnFine (run readonly numConnections turns) turn) :
    RunFine readonly numConnections (turns ++ [turn]) :=
  Runs.prefixes_append fine next

/-- A body of one call, which lets exceptions pass. -/
def alone (call : Call) : Body :=
  .call call fun
    | .ok () => .done
    | .error exc => .raise exc

/-- A greenlet that idles is killed, and its connection is put back. -/
def killedIdle : List Turn :=
  [.enter (alone .pollIdle), .connect 0 none,
    .call 0 ⟨.completes, .fails .greenletExit false, .completes, .completes⟩, .leave 0 .completes]

theorem killedIdle_ready : (run true 1 killedIdle).Ready := by
  apply pool_ready
  have start : RunFine true 1 [] := Runs.prefixes_nil
  have connected := (start.append (.enter (alone .pollIdle)) trivial).append (.connect 0 none) trivial
  refine (connected.append (.call 0 ⟨.completes, .fails .greenletExit false, .completes, .completes⟩) ?_).append
    (.leave 0 .completes) ?_
  · intro user call next found shape fault struck
    cases found
    cases shape
    exact nomatch struck
  · intro user client _ _ fault sent same
    cases same

/-- A greenlet that is killed while it waits for the answer to a command leaves the command
outstanding on a connection that is handed out again. -/
theorem killed_command_outstanding : ¬ ∀ readonly numConnections turns,
    (run readonly numConnections turns).Ready := by
  intro all
  have ready := all true 1 [.enter (alone .command), .connect 0 none,
    .call 0 ⟨.fails .greenletExit true, .completes, .completes, .completes⟩, .leave 0 .completes]
  exact nomatch ready ⟨0, .outstanding⟩ (List.mem_singleton_self _)

end Pool
end Crispin
end SyncEngine
