import Armor.Lib.Run

/-! The control protocol of `tls_handshake_test_client.sh` and `tls_handshake_test_server.sh`: the
two scripts as one step relation over the parties' positions and the message in flight. What is
done between two control signals (certificates, output files, `openssl.cnf`) is left out, the
outcome of each `s_time` run is an action of the schedule. -/
namespace Armor.Tls

inductive TestType where
  | pqc
  | hybrid
  | classic
  deriving DecidableEq, Repr

structure Combination where
  runNum : Nat
  testType : TestType
  outer : String
  inner : String
  deriving DecidableEq, Repr

structure Lists where
  sigAlgs : List String
  kemAlgs : List String
  hybridSigAlgs : List String
  hybridKemAlgs : List String
  ciphers : List String
  classicAlgs : List String
  numRun : Nat
  deriving DecidableEq, Repr

inductive Item where
  | handshake
  | test (combination : Combination)
  deriving DecidableEq, Repr

def loopTests (runNum : Nat) (testType : TestType) (outer inner : List String) : List Item :=
  outer.flatMap fun first => inner.map fun second => .test ⟨runNum, testType, first, second⟩

def pqcTests (lists : Lists) (runNum : Nat) : List Item :=
  loopTests runNum .pqc lists.sigAlgs lists.kemAlgs

def hybridTests (lists : Lists) (runNum : Nat) : List Item :=
  loopTests runNum .hybrid lists.hybridSigAlgs lists.hybridKemAlgs

def classicTests (lists : Lists) (runNum : Nat) : List Item :=
  loopTests runNum .classic lists.ciphers lists.classicAlgs

def testEntrypoint (lists : Lists) : List Item :=
  .handshake :: (List.range' 1 lists.numRun).flatMap fun runNum =>
    .handshake :: pqcTests lists runNum ++ .handshake :: hybridTests lists runNum
      ++ .handshake :: classicTests lists runNum

inductive Message where
  | handshakeReady
  | ready
  | skip
  | complete
  | failed
  deriving DecidableEq, Repr

inductive Listening where
  | controlWait
  | iterationHandshake
  deriving DecidableEq, Repr

def Listening.accepts : Listening → Message → Bool
  | .controlWait, .ready => true
  | .controlWait, .skip => true
  | .controlWait, .complete => true
  | .iterationHandshake, .handshakeReady => true
  | _, _ => false

inductive ClientPoint where
  | handshakeSend
  | handshakeWait
  | readySend
  | readyWait
  | dispatch
  | measure
  | report
  | skipReport
  | finished
  deriving DecidableEq, Repr

structure Client where
  todo : List Item
  point : ClientPoint
  signalMessage : Option Message
  failCounter : Nat
  failFlag : Bool
  deriving DecidableEq, Repr

namespace Client

def enter (c : Client) : List Item → Client
  | [] => { c with todo := [], point := .finished }
  | item :: rest => { c with todo := item :: rest, point := .handshakeSend, failFlag := false }

def sending (c : Client) : Option Message :=
  match c.point with
  | .handshakeSend => some .handshakeReady
  | .readySend => some .ready
  | .report => some (if c.failFlag then .failed else .complete)
  | .skipReport => some .complete
  | _ => none

def listening (c : Client) : Option Listening :=
  match c.point with
  | .handshakeWait => some .iterationHandshake
  | .readyWait => some .controlWait
  | _ => none

def sent (c : Client) : Client :=
  match c.point with
  | .handshakeSend => { c with point := .handshakeWait }
  | .readySend => { c with point := .readyWait }
  -- `failed` restarts the combination under the same `fail_flag`
  | .report => if c.failFlag then { c with point := .handshakeSend } else c.enter c.todo.tail
  | .skipReport => c.enter c.todo.tail
  | _ => c

def accepted (c : Client) : Client :=
  match c.point with
  | .handshakeWait =>
    match c.todo with
    | .test _ :: _ => { c with point := .readySend }
    | _ => c.enter c.todo.tail
  | .readyWait => { c with point := .dispatch }
  | _ => c

def receive (c : Client) (loop : Listening) (message : Message) : Client :=
  let heard := { c with signalMessage := some message }
  if loop.accepts message then heard.accepted else heard

def dispatched (c : Client) : Client :=
  match c.todo with
  | .test ⟨_, .classic, _, _⟩ :: _ => { c with point := .measure, failCounter := 0 }
  | _ =>
    match c.signalMessage with
    | some .ready => { c with point := .measure, failCounter := 0 }
    | some .skip => { c with point := .skipReport }
    | _ => { c with point := .handshakeSend }

def attempted (c : Client) (passed : Bool) : Client :=
  if passed then { c with point := .report, failFlag := false }
  else if c.failCounter ≠ 3000 then { c with failCounter := c.failCounter + 1 }
  else { c with point := .report, failFlag := true }

end Client

inductive ServerPoint where
  | loopHead
  | handshakeWait
  | handshakeSend
  | readyWait
  | startServer
  | readySend
  | statusWait
  | statusCheck
  | finished
  deriving DecidableEq, Repr

structure Server where
  todo : List Item
  point : ServerPoint
  signalMessage : Option Message
  serving : Option Combination
  deriving DecidableEq, Repr

namespace Server

def enter (s : Server) : List Item → Server
  | [] => { s with todo := [], point := .finished }
  | .handshake :: rest => { s with todo := .handshake :: rest, point := .handshakeWait }
  | .test combination :: rest => { s with todo := .test combination :: rest, point := .loopHead }

def sending (s : Server) : Option Message :=
  match s.point with
  | .handshakeSend => some .handshakeReady
  | .readySend => some .ready
  | _ => none

def listening (s : Server) : Option Listening :=
  match s.point with
  | .handshakeWait => some .iterationHandshake
  | .readyWait => some .controlWait
  | .statusWait => some .controlWait
  | _ => none

def sent (s : Server) : Server :=
  match s.point with
  | .handshakeSend =>
    match s.todo with
    | .test _ :: _ => { s with point := .readyWait }
    | _ => s.enter s.todo.tail
  | .readySend => { s with point := .statusWait }
  | _ => s

def accepted (s : Server) : Server :=
  match s.point with
  | .handshakeWait => { s with point := .handshakeSend }
  | .readyWait => { s with point := .startServer }
  | .statusWait => { s with point := .statusCheck }
  | _ => s

def receive (s : Server) (loop : Listening) (message : Message) : Server :=
  let heard := { s with signalMessage := some message }
  if loop.accepts message then heard.accepted else heard

def currentTest (s : Server) : Option Combination :=
  match s.todo with
  | .test combination :: _ => some combination
  | _ => none

def computed (s : Server) : Option Server :=
  match s.point with
  -- an `openssl` process that is still active is killed first
  | .loopHead => some { s with point := .handshakeWait, serving := none }
  | .startServer => some { s with point := .readySend, serving := s.currentTest }
  | .statusCheck =>
    match s.signalMessage with
    | some .complete => some ({ s with serving := none }.enter s.todo.tail)
    | some .failed => some { s with point := .loopHead, serving := none }
    | _ => some { s with point := .loopHead }
  | _ => none

end Server

inductive Party where
  | client
  | server
  deriving DecidableEq, Repr

structure State where
  client : Client
  server : Server
  flight : Option (Party × Message)
  deriving DecidableEq, Repr

inductive Action where
  | send (sender : Party)
  | deliver
  | dispatch
  | attempt (passed : Bool)
  | compute
  deriving DecidableEq, Repr

def initial (client server : Lists) : State where
  client := Client.enter ⟨[], .finished, none, 0, false⟩ (testEntrypoint client)
  server := Server.enter ⟨[], .finished, none, none⟩ (testEntrypoint server)
  flight := none

def sendStep (s : State) : Party → Option State
  | .client =>
    -- `check_control_port` waits until the other party listens
    if s.flight = none ∧ s.server.listening.isSome then
      s.client.sending.map fun message =>
        { s with client := s.client.sent, flight := some (.server, message) }
    else none
  | .server =>
    if s.flight = none ∧ s.client.listening.isSome then
      s.server.sending.map fun message =>
        { s with server := s.server.sent, flight := some (.client, message) }
    else none

def deliverStep (s : State) : Option State :=
  match s.flight with
  | none => none
  | some (.client, message) => s.client.listening.map fun loop =>
    { s with client := s.client.receive loop message, flight := none }
  | some (.server, message) => s.server.listening.map fun loop =>
    { s with server := s.server.receive loop message, flight := none }

def step (s : State) : Action → Option State
  | .send sender => sendStep s sender
  | .deliver => deliverStep s
  | .dispatch => if s.client.point = .dispatch then some { s with client := s.client.dispatched } else none
  | .attempt passed =>
    if s.client.point = .measure then some { s with client := s.client.attempted passed } else none
  | .compute => s.server.computed.map fun server => { s with server := server }

def Deadlocked (s : State) : Prop :=
  s.client.listening.isSome ∧ s.server.listening.isSome ∧ s.flight = none

instance (s : State) : Decidable (Deadlocked s) := inferInstanceAs (Decidable (_ ∧ _ ∧ _))

def Finished (s : State) : Prop := s.client.point = .finished ∧ s.server.point = .finished

def exhausts (s : State) : Action → Bool
  | .attempt false => s.client.point = .measure && s.client.failCounter = 3000
  | _ => false

end Armor.Tls
