import Armor.Tls.Deadlock

/-! Agreement of the two scripts when messages are delivered more than once. The `until` loops send
a message again as long as `nc` reports a non-zero status, delivered or not. An `nc -l` takes one
connection, so each copy reaches the listening loop its `nc` connected to. -/
namespace Armor.Tls

/-- A step of the scripts, or a send whose `nc` reports a non-zero status. -/
inductive Attempt where
  | proceeds (action : Action)
  | again (sender : Party)
  deriving DecidableEq, Repr

def retryStep (s : State) : Attempt → Option State
  | .proceeds action => step s action
  -- the sender stays in its loop
  | .again sender => (sendStep s sender).map fun sent => { s with flight := sent.flight }

def Client.currentTest (c : Client) : Option Combination :=
  match c.todo with
  | .test combination :: _ => some combination
  | _ => none

def tests : List Item → List Combination
  | [] => []
  | .handshake :: rest => tests rest
  | .test combination :: rest => combination :: tests rest

def passes (s : State) : Attempt → Option Combination
  | .proceeds (.attempt true) => s.client.currentTest
  | _ => none

def records (s : State) : Attempt → Option Combination
  | .proceeds (.send .client) =>
    match s.client.point with
    | .report => if s.client.failFlag then none else s.client.currentTest
    | .skipReport => s.client.currentTest
    | _ => none
  | _ => none

def advances (s : State) : Attempt → Option Combination
  | .proceeds .compute =>
    if s.server.point = .statusCheck ∧ s.server.signalMessage = some .complete then s.server.currentTest else none
  | _ => none

inductive Resent : State → Prop where
  | greeting {item todo signal count flag signal' serving} :
      Resent ⟨⟨item :: todo, .handshakeSend, signal, count, flag⟩,
        ⟨item :: todo, .handshakeWait, signal', serving⟩, some (.server, .handshakeReady)⟩
  | crossed {item todo signal count flag signal' serving} :
      Resent ⟨⟨item :: todo, .handshakeSend, signal, count, flag⟩,
        ⟨item :: todo, .handshakeSend, signal', serving⟩, none⟩
  | answering {item todo signal count flag signal' serving} :
      Resent ⟨⟨item :: todo, .handshakeWait, signal, count, flag⟩,
        ⟨item :: todo, .handshakeSend, signal', serving⟩, some (.client, .handshakeReady)⟩
  | answered {test todo signal count flag signal' serving} :
      Resent ⟨⟨.test test :: todo, .readySend, signal, count, flag⟩,
        ⟨.test test :: todo, .handshakeSend, signal', serving⟩, none⟩
  | passed {todo client signal' serving} (clientAt : ClientAt todo client) :
      Resent ⟨client, ⟨.handshake :: todo, .handshakeSend, signal', serving⟩, none⟩
  | announced {test todo signal count flag signal' serving} :
      Resent ⟨⟨.test test :: todo, .readySend, signal, count, flag⟩,
        ⟨.test test :: todo, .readyWait, signal', serving⟩, some (.server, .ready)⟩
  | launching {test todo signal count flag signal' serving} :
      Resent ⟨⟨.test test :: todo, .readySend, signal, count, flag⟩,
        ⟨.test test :: todo, .startServer, signal', serving⟩, none⟩
  | launched {test todo signal count flag signal'} :
      Resent ⟨⟨.test test :: todo, .readySend, signal, count, flag⟩,
        ⟨.test test :: todo, .readySend, signal', some test⟩, none⟩
  | offering {test todo signal count flag signal'} :
      Resent ⟨⟨.test test :: todo, .readyWait, signal, count, flag⟩,
        ⟨.test test :: todo, .readySend, signal', some test⟩, some (.client, .ready)⟩
  | dispatching {test todo count flag signal'} :
      Resent ⟨⟨.test test :: todo, .dispatch, some .ready, count, flag⟩,
        ⟨.test test :: todo, .readySend, signal', some test⟩, none⟩
  | measuring {test todo signal count flag signal'} :
      Resent ⟨⟨.test test :: todo, .measure, signal, count, flag⟩,
        ⟨.test test :: todo, .readySend, signal', some test⟩, none⟩
  | reporting {test todo signal count flag signal'} :
      Resent ⟨⟨.test test :: todo, .report, signal, count, flag⟩,
        ⟨.test test :: todo, .readySend, signal', some test⟩, none⟩
  | completing {test todo signal count signal'} :
      Resent ⟨⟨.test test :: todo, .report, signal, count, false⟩,
        ⟨.test test :: todo, .statusWait, signal', some test⟩, some (.server, .complete)⟩
  | checking {test todo signal count} :
      Resent ⟨⟨.test test :: todo, .report, signal, count, false⟩,
        ⟨.test test :: todo, .statusCheck, some .complete, some test⟩, none⟩
  -- the server has gone on, the client has not noticed that its `complete` arrived
  | unnoticed {test todo signal count server} (serverAt : ServerAt todo server) :
      Resent ⟨⟨.test test :: todo, .report, signal, count, false⟩, server, none⟩
  | repeating {test item todo signal count signal' serving} :
      Resent ⟨⟨.test test :: item :: todo, .report, signal, count, false⟩,
        ⟨item :: todo, .handshakeWait, signal', serving⟩, some (.server, .complete)⟩
  | stale {item todo signal count flag signal' serving} :
      Resent ⟨⟨item :: todo, .handshakeSend, signal, count, flag⟩,
        ⟨item :: todo, .handshakeWait, signal', serving⟩, some (.server, .complete)⟩
  | failing {test todo signal count signal' serving} :
      Resent ⟨⟨.test test :: todo, .report, signal, count, true⟩,
        ⟨.test test :: todo, .statusWait, signal', serving⟩, some (.server, .failed)⟩
  | retrying {test todo signal count flag signal' serving} :
      Resent ⟨⟨.test test :: todo, .handshakeSend, signal, count, flag⟩,
        ⟨.test test :: todo, .statusWait, signal', serving⟩, some (.server, .handshakeReady)⟩

inductive Position (s : State) : Prop where
  | inStep (aligned : InStep s)
  | lost (lost : Lost s)
  | resent (resent : Resent s)

variable {s s' : State}

theorem againCases {sender : Party} (moves : retryStep s (.again sender) = some s') :
    ∃ sent, sendStep s sender = some sent ∧ s' = { s with flight := sent.flight } := by
  obtain ⟨sent, sends, same⟩ := Option.map_eq_some_iff.mp moves
  exact ⟨sent, sends, same.symm⟩

theorem inStepAgainClient (aligned : InStep s) {sent : State} (sends : sendStep s .client = some sent) :
    Resent { s with flight := sent.flight } := by
  obtain ⟨free, listens, message, posts, rfl⟩ := sendClientCases sends
  cases aligned with
  | opening clientAt serverAt =>
    cases serverAt with
    | handshakeWait =>
      cases clientAt
      cases posts
      exact .greeting
    | finished => cases listens
    | loopHead => cases listens
  | announcing =>
    cases posts
    exact .announced
  | reporting =>
    cases posts
    exact .completing
  | checking clientAt => cases listens
  | _ => first | cases posts | cases free

theorem inStepAgainServer (aligned : InStep s) {sent : State} (sends : sendStep s .server = some sent) :
    Resent { s with flight := sent.flight } := by
  obtain ⟨free, listens, message, posts, rfl⟩ := sendServerCases sends
  cases aligned with
  | opening clientAt serverAt => cases clientAt <;> cases listens
  | greeted =>
    cases posts
    exact .answering
  | launched =>
    cases posts
    exact .offering
  | _ => first | cases posts | cases free

theorem lostAgain (lost : Lost s) {sender : Party} {sent : State} (sends : sendStep s sender = some sent) :
    Resent { s with flight := sent.flight } := by
  cases sender with
  | client =>
    obtain ⟨free, listens, message, posts, rfl⟩ := sendClientCases sends
    cases lost with
    | reporting =>
      cases posts
      exact .failing
    | retrying =>
      cases posts
      exact .retrying
    | _ => first | (cases posts; done) | cases free
  | server =>
    obtain ⟨free, listens, message, posts, rfl⟩ := sendServerCases sends
    cases lost <;> cases posts

theorem resentSends (resent : Resent s) {sender : Party} {sent : State} (sends : sendStep s sender = some sent) :
    sender = .client ∧ ∃ test item todo signal count signal' serving,
      s = ⟨⟨.test test :: item :: todo, .report, signal, count, false⟩,
        ⟨item :: todo, .handshakeWait, signal', serving⟩, none⟩ := by
  cases sender with
  | client =>
    obtain ⟨free, listens, message, posts, rfl⟩ := sendClientCases sends
    cases resent with
    | unnoticed serverAt =>
      cases serverAt with
      | handshakeWait => exact ⟨rfl, _, _, _, _, _, _, _, rfl⟩
      | finished => cases listens
      | loopHead => cases listens
    | _ => first | (cases listens; done) | cases free
  | server =>
    obtain ⟨free, listens, message, posts, rfl⟩ := sendServerCases sends
    cases resent with
    | passed clientAt => cases clientAt <;> cases listens
    | _ => first | (cases listens; done) | cases free

theorem resentDeliver (resent : Resent s) (moves : deliverStep s = some s') : Position s' := by
  obtain ⟨message, loop, flies, listens, rfl⟩ | ⟨message, loop, flies, listens, rfl⟩ := deliverCases moves
  · cases resent with
    | @answering item =>
      cases flies
      cases listens
      cases item with
      | handshake => exact .resent (.passed (clientEnterAt _ _))
      | test combination => exact .resent .answered
    | offering =>
      cases flies
      cases listens
      exact .resent .dispatching
    | _ => cases flies
  · cases resent with
    | greeting =>
      cases flies
      cases listens
      exact .resent .crossed
    | announced =>
      cases flies
      cases listens
      exact .resent .launching
    | completing =>
      cases flies
      cases listens
      exact .resent .checking
    | repeating =>
      cases flies
      cases listens
      exact .resent (.unnoticed .handshakeWait)
    | stale =>
      cases flies
      cases listens
      exact .inStep (.opening .handshakeSend .handshakeWait)
    | failing =>
      cases flies
      cases listens
      exact .lost .reporting
    | retrying =>
      cases flies
      cases listens
      exact .lost .retrying
    | _ => cases flies

theorem resentDispatch (resent : Resent s) (dispatches : s.client.point = .dispatch) :
    Resent { s with client := s.client.dispatched } := by
  cases resent with
  | passed clientAt => cases clientAt <;> cases dispatches
  | @dispatching test =>
    obtain ⟨runNum, testType, outer, inner⟩ := test
    cases testType <;> exact .measuring
  | _ => cases dispatches

theorem resentAttempt (resent : Resent s) (measures : s.client.point = .measure) (passed : Bool) :
    Resent { s with client := s.client.attempted passed } := by
  cases resent with
  | passed clientAt => cases clientAt <;> cases measures
  | measuring =>
    unfold Client.attempted
    split
    · exact .reporting
    · split
      · exact .measuring
      · exact .reporting
  | _ => cases measures

theorem resentCompute (resent : Resent s) {server : Server} (computes : s.server.computed = some server) :
    Resent { s with server := server } := by
  cases resent with
  | launching =>
    cases computes
    exact .launched
  | checking =>
    cases computes
    exact .unnoticed (serverEnterAt _ _)
  | unnoticed serverAt =>
    cases serverAt with
    | loopHead =>
      cases computes
      exact .unnoticed .handshakeWait
    | finished => cases computes
    | handshakeWait => cases computes
  | _ => cases computes

theorem resentStep {a : Action} (resent : Resent s) (moves : step s a = some s') : Position s' := by
  cases a with
  | send sender =>
    obtain ⟨rfl, test, item, todo, signal, count, signal', serving, rfl⟩ := resentSends resent moves
    cases moves
    exact .resent .stale
  | deliver => exact resentDeliver resent moves
  | dispatch =>
    simp only [step, Option.ite_none_right_eq_some] at moves
    obtain ⟨dispatches, same⟩ := moves
    cases same
    exact .resent (resentDispatch resent dispatches)
  | attempt passed =>
    simp only [step, Option.ite_none_right_eq_some] at moves
    obtain ⟨measures, same⟩ := moves
    cases same
    exact .resent (resentAttempt resent measures passed)
  | compute =>
    obtain ⟨server, computes, rfl⟩ := Option.map_eq_some_iff.mp moves
    exact .resent (resentCompute resent computes)

theorem positionStep {a : Attempt} (position : Position s) (moves : retryStep s a = some s') : Position s' := by
  cases a with
  | proceeds action =>
    cases position with
    | inStep aligned =>
      cases gives : exhausts s action with
      | false => exact .inStep (inStepStep aligned gives moves)
      | true => exact .lost (exhaustedLost aligned gives moves)
    | lost lost => exact .lost (lostStep lost moves)
    | resent resent => exact resentStep resent moves
  | again sender =>
    obtain ⟨sent, sends, rfl⟩ := againCases moves
    cases position with
    | inStep aligned =>
      cases sender with
      | client => exact .resent (inStepAgainClient aligned sends)
      | server => exact .resent (inStepAgainServer aligned sends)
    | lost lost => exact .resent (lostAgain lost sends)
    | resent resent =>
      obtain ⟨rfl, test, item, todo, signal, count, signal', serving, rfl⟩ := resentSends resent sends
      cases sends
      exact .resent .repeating

theorem positionRun {lists : Lists} {actions : List Attempt}
    (run : Run.execute retryStep (initial lists lists) actions = some s) : Position s :=
  Run.executeInvariant positionStep run (.inStep (initialInStep lists))

section Logs

theorem clientEnterTodo (c : Client) (todo : List Item) : (c.enter todo).todo = todo := by
  cases todo <;> rfl

theorem serverEnterTodo (s : Server) (todo : List Item) : (s.enter todo).todo = todo := by
  cases todo with
  | nil => rfl
  | cons item rest => cases item <;> rfl

theorem clientTestsTail (c : Client) : tests c.todo = c.currentTest.toList ++ tests c.todo.tail := by
  unfold Client.currentTest
  cases c.todo with
  | nil => rfl
  | cons item rest => cases item <;> rfl

theorem serverTestsTail (s : Server) : tests s.todo = s.currentTest.toList ++ tests s.todo.tail := by
  unfold Server.currentTest
  cases s.todo with
  | nil => rfl
  | cons item rest => cases item <;> rfl

theorem clientReceiveTests (c : Client) (loop : Listening) (message : Message) :
    tests (c.receive loop message).todo = tests c.todo := by
  unfold Client.receive
  split
  · unfold Client.accepted
    cases point : c.point with
    | handshakeWait =>
      cases todo : c.todo with
      | nil => rfl
      | cons item rest =>
        cases item with
        | handshake =>
          change tests (Client.enter _ rest).todo = tests rest
          rw [clientEnterTodo]
        | test combination => rfl
    | _ => rfl
  · rfl

theorem serverReceiveTodo (s : Server) (loop : Listening) (message : Message) : (s.receive loop message).todo = s.todo := by
  unfold Server.receive
  split
  · unfold Server.accepted
    cases point : s.point <;> rfl
  · rfl

theorem clientSentTests (c : Client) : tests c.todo = (match c.point with
    | .report => if c.failFlag then none else c.currentTest
    | .skipReport => c.currentTest
    | _ => none : Option Combination).toList ++ tests c.sent.todo := by
  unfold Client.sent
  cases point : c.point with
  | report =>
    cases flag : c.failFlag with
    | true => rfl
    | false =>
      simp only [Bool.false_eq_true, if_false, clientEnterTodo]
      exact clientTestsTail c
  | skipReport =>
    simp only [clientEnterTodo]
    exact clientTestsTail c
  | _ => rfl

theorem serverSentTests (s : Server) : tests s.sent.todo = tests s.todo := by
  unfold Server.sent
  cases point : s.point with
  | handshakeSend =>
    cases todo : s.todo with
    | nil => rfl
    | cons item rest =>
      cases item with
      | handshake =>
        change tests (Server.enter _ rest).todo = tests rest
        rw [serverEnterTodo]
      | test combination => rfl
  | _ => rfl

theorem clientDispatchedTodo (c : Client) : c.dispatched.todo = c.todo := by
  unfold Client.dispatched
  split
  · rfl
  · split <;> rfl

theorem clientAttemptedTodo (c : Client) (passed : Bool) : (c.attempted passed).todo = c.todo := by
  unfold Client.attempted
  split
  · rfl
  · split <;> rfl

theorem serverComputedTests {s server : Server} (computes : s.computed = some server) :
    tests s.todo = (if s.point = .statusCheck ∧ s.signalMessage = some .complete then s.currentTest
      else none : Option Combination).toList ++ tests server.todo := by
  unfold Server.computed at computes
  cases point : s.point with
  | loopHead =>
    simp only [point] at computes
    cases computes
    rfl
  | startServer =>
    simp only [point] at computes
    cases computes
    rfl
  | statusCheck =>
    simp only [point] at computes
    by_cases complete : s.signalMessage = some .complete
    · simp only [complete] at computes
      cases computes
      rw [if_pos ⟨rfl, complete⟩, serverEnterTodo]
      exact serverTestsTail s
    · rw [if_neg fun both => complete both.2]
      split at computes
      · next same => exact absurd same complete
      · cases computes
        rfl
      · cases computes
        rfl
  | _ =>
    simp only [point] at computes
    cases computes

theorem recordsLeft {a : Attempt} (moves : retryStep s a = some s') :
    tests s.client.todo = (records s a).toList ++ tests s'.client.todo := by
  cases a with
  | again sender =>
    obtain ⟨sent, sends, rfl⟩ := againCases moves
    rfl
  | proceeds action =>
    cases action with
    | send sender =>
      cases sender with
      | client =>
        obtain ⟨free, listens, message, posts, rfl⟩ := sendClientCases moves
        exact clientSentTests s.client
      | server =>
        obtain ⟨free, listens, message, posts, rfl⟩ := sendServerCases moves
        rfl
    | deliver =>
      obtain ⟨message, loop, flies, listens, rfl⟩ | ⟨message, loop, flies, listens, rfl⟩ := deliverCases moves
      · exact (clientReceiveTests s.client loop message).symm
      · rfl
    | dispatch =>
      simp only [retryStep, step, Option.ite_none_right_eq_some] at moves
      obtain ⟨dispatches, same⟩ := moves
      cases same
      exact (congrArg tests (clientDispatchedTodo s.client)).symm
    | attempt passed =>
      simp only [retryStep, step, Option.ite_none_right_eq_some] at moves
      obtain ⟨measures, same⟩ := moves
      cases same
      exact (congrArg tests (clientAttemptedTodo s.client passed)).symm
    | compute =>
      obtain ⟨server, computes, rfl⟩ := Option.map_eq_some_iff.mp moves
      rfl

theorem advancesLeft {a : Attempt} (moves : retryStep s a = some s') :
    tests s.server.todo = (advances s a).toList ++ tests s'.server.todo := by
  cases a with
  | again sender =>
    obtain ⟨sent, sends, rfl⟩ := againCases moves
    rfl
  | proceeds action =>
    cases action with
    | send sender =>
      cases sender with
      | client =>
        obtain ⟨free, listens, message, posts, rfl⟩ := sendClientCases moves
        rfl
      | server =>
        obtain ⟨free, listens, message, posts, rfl⟩ := sendServerCases moves
        exact (serverSentTests s.server).symm
    | deliver =>
      obtain ⟨message, loop, flies, listens, rfl⟩ | ⟨message, loop, flies, listens, rfl⟩ := deliverCases moves
      · rfl
      · exact (congrArg tests (serverReceiveTodo s.server loop message)).symm
    | dispatch =>
      simp only [retryStep, step, Option.ite_none_right_eq_some] at moves
      obtain ⟨dispatches, same⟩ := moves
      cases same
      rfl
    | attempt passed =>
      simp only [retryStep, step, Option.ite_none_right_eq_some] at moves
      obtain ⟨measures, same⟩ := moves
      cases same
      rfl
    | compute =>
      obtain ⟨server, computes, rfl⟩ := Option.map_eq_some_iff.mp moves
      exact serverComputedTests computes

def pending (c : Client) : List Combination :=
  if c.point = .report ∧ c.failFlag = false then c.currentTest.toList else []

theorem pendingElsewhere {c : Client} (elsewhere : c.point ≠ .report) : pending c = [] :=
  if_neg fun both => elsewhere both.1

theorem skipUnreached (position : Position s) : s.client.point ≠ .skipReport := by
  cases position with
  | inStep aligned =>
    cases aligned with
    | opening clientAt serverAt => cases clientAt <;> exact nofun
    | completing clientAt => cases clientAt <;> exact nofun
    | checking clientAt => cases clientAt <;> exact nofun
    | _ => exact nofun
  | lost lost => cases lost <;> exact nofun
  | resent resent =>
    cases resent with
    | passed clientAt => cases clientAt <;> exact nofun
    | _ => exact nofun

theorem pendingEnter (c : Client) (todo : List Item) : pending (c.enter todo) = [] := by
  cases todo <;> exact pendingElsewhere nofun

theorem pendingReceive {c : Client} {loop : Listening} (listens : c.listening = some loop) (message : Message) :
    pending c = [] ∧ pending (c.receive loop message) = [] := by
  have waits : c.point = .handshakeWait ∨ c.point = .readyWait := by
    unfold Client.listening at listens
    cases point : c.point <;> simp [point] at listens ⊢
  have elsewhere : c.point ≠ .report := by
    rcases waits with here | here <;> rw [here] <;> exact nofun
  refine ⟨pendingElsewhere elsewhere, ?_⟩
  unfold Client.receive
  split
  · unfold Client.accepted
    rcases waits with here | here
    · simp only [here]
      split
      · exact pendingElsewhere nofun
      · exact pendingEnter _ _
    · simp only [here]
      exact pendingElsewhere nofun
  · exact pendingElsewhere elsewhere

theorem pendingSent {c : Client} (reports : c.point ≠ .skipReport) :
    pending c = (match c.point with
      | .report => if c.failFlag then none else c.currentTest
      | .skipReport => c.currentTest
      | _ => none : Option Combination).toList ++ pending c.sent := by
  unfold Client.sent
  cases point : c.point with
  | report =>
    cases flag : c.failFlag with
    | true => simp [pending, flag]
    | false =>
      simp only [Bool.false_eq_true, if_false, pendingEnter, List.append_nil]
      exact if_pos ⟨point, flag⟩
  | skipReport => exact absurd point reports
  | _ => simp [pending, point]

theorem pendingAttempted {c : Client} (measures : c.point = .measure) (passed : Bool) :
    pending c = [] ∧ pending (c.attempted passed) = (if passed then c.currentTest else none).toList := by
  refine ⟨pendingElsewhere (by rw [measures]; exact nofun), ?_⟩
  unfold Client.attempted
  cases passed with
  | true => exact if_pos ⟨rfl, rfl⟩
  | false =>
    simp only [Bool.false_eq_true, if_false]
    split
    · exact pendingElsewhere (by rw [measures]; exact nofun)
    · exact if_neg fun both => nomatch both.2

theorem pendingDispatched {c : Client} (dispatches : c.point = .dispatch) :
    pending c = [] ∧ pending c.dispatched = [] := by
  refine ⟨pendingElsewhere (by rw [dispatches]; exact nofun), ?_⟩
  unfold Client.dispatched
  split
  · exact pendingElsewhere nofun
  · split <;> exact pendingElsewhere nofun

theorem passesRecorded {a : Attempt} (position : Position s) (moves : retryStep s a = some s') :
    pending s.client ++ (passes s a).toList = (records s a).toList ++ pending s'.client := by
  cases a with
  | again sender =>
    obtain ⟨sent, sends, rfl⟩ := againCases moves
    exact List.append_nil _
  | proceeds action =>
    cases action with
    | send sender =>
      cases sender with
      | client =>
        obtain ⟨free, listens, message, posts, rfl⟩ := sendClientCases moves
        exact (List.append_nil _).trans (pendingSent (skipUnreached position))
      | server =>
        obtain ⟨free, listens, message, posts, rfl⟩ := sendServerCases moves
        exact List.append_nil _
    | deliver =>
      obtain ⟨message, loop, flies, listens, rfl⟩ | ⟨message, loop, flies, listens, rfl⟩ := deliverCases moves
      · have silent := pendingReceive listens message
        rw [silent.1]
        exact silent.2.symm
      · exact List.append_nil _
    | dispatch =>
      simp only [retryStep, step, Option.ite_none_right_eq_some] at moves
      obtain ⟨dispatches, same⟩ := moves
      cases same
      have silent := pendingDispatched dispatches
      rw [silent.1]
      exact silent.2.symm
    | attempt passed =>
      simp only [retryStep, step, Option.ite_none_right_eq_some] at moves
      obtain ⟨measures, same⟩ := moves
      cases same
      have tested := pendingAttempted measures passed
      rw [tested.1]
      cases passed <;> exact tested.2.symm
    | compute =>
      obtain ⟨server, computes, rfl⟩ := Option.map_eq_some_iff.mp moves
      exact List.append_nil _

end Logs

theorem measuredOwn (position : Position s) (measures : s.client.point = .measure) :
    ∃ test todo, s.client.todo = .test test :: todo ∧ s.server.serving = some test := by
  cases position with
  | inStep aligned =>
    cases aligned with
    | opening clientAt serverAt => cases clientAt <;> cases measures
    | completing clientAt => cases clientAt <;> cases measures
    | checking clientAt => cases clientAt <;> cases measures
    | measuring => exact ⟨_, _, rfl, rfl⟩
    | _ => cases measures
  | lost lost => cases lost <;> cases measures
  | resent resent =>
    cases resent with
    | passed clientAt => cases clientAt <;> cases measures
    | measuring => exact ⟨_, _, rfl, rfl⟩
    | _ => cases measures

theorem clientAtTodo {todo : List Item} {client : Client} (clientAt : ClientAt todo client) : client.todo = todo := by
  cases clientAt <;> rfl

theorem serverAtTodo {todo : List Item} {server : Server} (serverAt : ServerAt todo server) : server.todo = todo := by
  cases serverAt <;> rfl

def WillAdvance (s : State) (test : Combination) : Prop :=
  ∃ more later, Run.execute retryStep s more = some later ∧ Run.log advances retryStep s more = [test] ∧
    Run.log records retryStep s more = []

theorem leftTests (position : Position s) :
    tests s.client.todo = tests s.server.todo ∨
    (∃ test, tests s.server.todo = test :: tests s.client.todo ∧ WillAdvance s test) ∨
    (∃ test, tests s.client.todo = test :: tests s.server.todo ∧ pending s.client = [test]) := by
  cases position with
  | inStep aligned =>
    cases aligned with
    | opening clientAt serverAt => exact .inl (by rw [clientAtTodo clientAt, serverAtTodo serverAt])
    | passing serverAt => exact .inl (congrArg tests (serverAtTodo serverAt)).symm
    | completing clientAt =>
      exact .inr (.inl ⟨_, congrArg _ (congrArg tests (clientAtTodo clientAt)).symm,
        [.proceeds .deliver, .proceeds .compute], _, rfl, rfl, rfl⟩)
    | checking clientAt =>
      exact .inr (.inl ⟨_, congrArg _ (congrArg tests (clientAtTodo clientAt)).symm,
        [.proceeds .compute], _, rfl, rfl, rfl⟩)
    | _ => exact .inl rfl
  | lost lost => cases lost <;> exact .inl rfl
  | resent resent =>
    cases resent with
    | passed clientAt => exact .inl ((congrArg tests (clientAtTodo clientAt)).trans rfl)
    | unnoticed serverAt => exact .inr (.inr ⟨_, congrArg _ (congrArg tests (serverAtTodo serverAt)).symm, rfl⟩)
    | repeating => exact .inr (.inr ⟨_, rfl, rfl⟩)
    | _ => exact .inl rfl

def combinations (lists : Lists) : List Combination :=
  (List.range' 1 lists.numRun).flatMap fun runNum =>
    (lists.sigAlgs.flatMap fun sig => lists.kemAlgs.map fun kem => ⟨runNum, .pqc, sig, kem⟩) ++
    (lists.hybridSigAlgs.flatMap fun sig => lists.hybridKemAlgs.map fun kem => ⟨runNum, .hybrid, sig, kem⟩) ++
    lists.ciphers.flatMap fun cipher => lists.classicAlgs.map fun alg => ⟨runNum, .classic, cipher, alg⟩

theorem testsAppend (first second : List Item) : tests (first ++ second) = tests first ++ tests second := by
  induction first with
  | nil => rfl
  | cons item rest ih =>
    cases item with
    | handshake => exact ih
    | test combination => exact congrArg (combination :: ·) ih

theorem testsLoop (runNum : Nat) (testType : TestType) (outer inner : List String) :
    tests (loopTests runNum testType outer inner) =
      outer.flatMap fun first => inner.map fun second => ⟨runNum, testType, first, second⟩ := by
  have row : ∀ first, tests (inner.map fun second => .test ⟨runNum, testType, first, second⟩) =
      inner.map fun second => ⟨runNum, testType, first, second⟩ := fun first => by
    induction inner with
    | nil => rfl
    | cons second rest ih => exact congrArg (_ :: ·) ih
  unfold loopTests
  induction outer with
  | nil => rfl
  | cons first rest ih => rw [List.flatMap_cons, List.flatMap_cons, testsAppend, row, ih]

theorem testsEntrypoint (lists : Lists) : tests (testEntrypoint lists) = combinations lists := by
  unfold testEntrypoint combinations
  change tests (List.flatMap _ _) = _
  induction List.range' 1 lists.numRun with
  | nil => rfl
  | cons runNum rest ih =>
    rw [List.flatMap_cons, List.flatMap_cons, testsAppend, ih]
    congr 1
    change tests ((pqcTests lists runNum ++ .handshake :: hybridTests lists runNum) ++
      .handshake :: classicTests lists runNum) = _
    rw [testsAppend, testsAppend]
    change (tests (loopTests runNum .pqc _ _) ++ tests (loopTests runNum .hybrid _ _)) ++
      tests (loopTests runNum .classic _ _) = _
    rw [testsLoop, testsLoop, testsLoop]

structure Agrees (all : List Combination) (s : State) (passed recorded advanced : List Combination) : Prop where
  measured : s.client.point = .measure →
    ∃ test, all[recorded.length]? = some test ∧ s.client.currentTest = some test ∧ s.server.serving = some test
  passedOnce : passed = recorded ∨ ∃ test, passed = recorded ++ [test]
  inOrder : passed <+: all ∧ recorded <+: all ∧ advanced <+: all
  together : recorded = advanced ∨
    (∃ test, recorded = advanced ++ [test] ∧ WillAdvance s test) ∨
    (∃ test, advanced = recorded ++ [test] ∧ passed = advanced)
  finished : s.client.point = .finished → recorded = all

theorem initialTests (lists : Lists) : combinations lists = tests (initial lists lists).client.todo ∧
    combinations lists = tests (initial lists lists).server.todo := by
  unfold initial
  dsimp only
  rw [clientEnterTodo, serverEnterTodo, testsEntrypoint]
  exact ⟨rfl, rfl⟩

section Runs

variable {lists : Lists} {actions : List Attempt} (run : Run.execute retryStep (initial lists lists) actions = some s)

include run

theorem recordedLeft :
    combinations lists = Run.log records retryStep (initial lists lists) actions ++ tests s.client.todo :=
  @Run.executeLogs State Attempt retryStep Combination records
    (fun s logged => combinations lists = logged ++ tests s.client.todo)
    (fun held moves => by rw [List.append_assoc, ← recordsLeft moves]; exact held) _ _ _ [] run
    (initialTests lists).1

theorem advancedLeft :
    combinations lists = Run.log advances retryStep (initial lists lists) actions ++ tests s.server.todo :=
  @Run.executeLogs State Attempt retryStep Combination advances
    (fun s logged => combinations lists = logged ++ tests s.server.todo)
    (fun held moves => by rw [List.append_assoc, ← advancesLeft moves]; exact held) _ _ _ [] run
    (initialTests lists).2

theorem passedPending : Run.log passes retryStep (initial lists lists) actions =
    Run.log records retryStep (initial lists lists) actions ++ pending s.client := by
  let Holds (s : State) (logged : List Combination) : Prop :=
    Position s ∧ ∃ done, combinations lists = done ++ tests s.client.todo ∧ logged = done ++ pending s.client
  have keep : ∀ {s a s' logged}, Holds s logged → retryStep s a = some s' →
      Holds s' (logged ++ (passes s a).toList) := by
    intro s a s' logged held moves
    obtain ⟨position, done, left, same⟩ := held
    refine ⟨positionStep position moves, done ++ (records s a).toList, ?_, ?_⟩
    · rw [List.append_assoc, ← recordsLeft moves]
      exact left
    · rw [same, List.append_assoc, List.append_assoc, passesRecorded position moves]
  have quiet : pending (initial lists lists).client = [] := pendingEnter _ _
  have start : Holds (initial lists lists) [] :=
    ⟨.inStep (initialInStep lists), [], (initialTests lists).1, quiet.symm⟩
  obtain ⟨position, done, left, same⟩ := Run.executeLogs keep run start
  have recorded : done = Run.log records retryStep (initial lists lists) actions :=
    List.append_cancel_right (left.symm.trans (recordedLeft run))
  rw [← recorded]
  exact same

end Runs

theorem pendingCases (c : Client) : pending c = [] ∨ ∃ test, pending c = [test] := by
  unfold pending
  split
  · cases c.currentTest with
    | none => exact .inl rfl
    | some test => exact .inr ⟨test, rfl⟩
  · exact .inl rfl

theorem pendingPrefix (c : Client) : pending c <+: tests c.todo := by
  rw [clientTestsTail]
  unfold pending
  split
  · exact List.prefix_append _ _
  · exact List.nil_prefix

theorem finishedTodo (position : Position s) (ended : s.client.point = .finished) : s.client.todo = [] := by
  cases position with
  | inStep aligned =>
    cases aligned with
    | opening clientAt serverAt => cases clientAt <;> first | rfl | cases ended
    | completing clientAt => cases clientAt <;> first | rfl | cases ended
    | checking clientAt => cases clientAt <;> first | rfl | cases ended
    | _ => cases ended
  | lost lost => cases lost <;> cases ended
  | resent resent =>
    cases resent with
    | passed clientAt => cases clientAt <;> first | rfl | cases ended
    | _ => cases ended

theorem controlAgreement (lists : Lists) (actions : List Attempt) (s : State)
    (run : Run.execute retryStep (initial lists lists) actions = some s) :
    Agrees (combinations lists) s (Run.log passes retryStep (initial lists lists) actions)
      (Run.log records retryStep (initial lists lists) actions)
      (Run.log advances retryStep (initial lists lists) actions) := by
  have position := positionRun run
  have recorded := recordedLeft run
  have advanced := advancedLeft run
  rw [passedPending run]
  generalize Run.log records retryStep (initial lists lists) actions = recordedLog at recorded ⊢
  generalize Run.log advances retryStep (initial lists lists) actions = advancedLog at advanced ⊢
  refine ⟨fun measures => ?_, ?_, ⟨?_, ?_, ?_⟩, ?_, fun ended => ?_⟩
  · obtain ⟨test, todo, left, serving⟩ := measuredOwn position measures
    refine ⟨test, ?_, ?_, serving⟩
    · rw [recorded, left, List.getElem?_append_right (Nat.le_refl _), Nat.sub_self]
      rfl
    · unfold Client.currentTest
      rw [left]
  · cases pendingCases s.client with
    | inl none_ => exact .inl (by rw [none_, List.append_nil])
    | inr some_ =>
      obtain ⟨test, one⟩ := some_
      exact .inr ⟨test, by rw [one]⟩
  · rw [recorded]
    exact (List.prefix_append_right_inj _).mpr (pendingPrefix s.client)
  · exact ⟨_, recorded.symm⟩
  · exact ⟨_, advanced.symm⟩
  · have both := recorded.symm.trans advanced
    rcases leftTests position with same | ⟨test, left, will⟩ | ⟨test, left, waits⟩
    · rw [same] at both
      exact .inl (List.append_cancel_right both)
    · rw [left, List.append_cons] at both
      exact .inr (.inl ⟨test, List.append_cancel_right both, will⟩)
    · rw [left, List.append_cons] at both
      have ahead := List.append_cancel_right both
      exact .inr (.inr ⟨test, ahead.symm, by rw [waits, ahead]⟩)
  · rw [recorded, finishedTodo position ended]
    exact (List.append_nil _).symm

def toRepeatedComplete : List Attempt :=
  toFirstTest.map .proceeds ++ [.proceeds (.attempt true), .again .client, .proceeds .deliver, .proceeds .compute,
    .again .client, .proceeds .deliver, .proceeds (.send .client)]

theorem controlAgreementRepeated :
    Agrees (combinations oneCombination)
      ((Run.execute retryStep (initial oneCombination oneCombination) toRepeatedComplete).get rfl)
      (Run.log passes retryStep (initial oneCombination oneCombination) toRepeatedComplete)
      (Run.log records retryStep (initial oneCombination oneCombination) toRepeatedComplete)
      (Run.log advances retryStep (initial oneCombination oneCombination) toRepeatedComplete) :=
  controlAgreement oneCombination toRepeatedComplete _ rfl

end Armor.Tls
