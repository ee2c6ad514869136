import Armor.Tls.Control

/-! When the control protocol deadlocks. Until a test gives up, client and server go through the
same item in step; once a test gives up, its `failed` is discarded by a server that accepts only
`ready`, `skip` and `complete`, and both parties end up listening. -/
namespace Armor.Tls

inductive ClientAt : List Item → Client → Prop where
  | finished {signal count flag} : ClientAt [] ⟨[], .finished, signal, count, flag⟩
  | handshakeSend {item todo signal count flag} :
      ClientAt (item :: todo) ⟨item :: todo, .handshakeSend, signal, count, flag⟩

inductive ServerAt : List Item → Server → Prop where
  | finished {signal serving} : ServerAt [] ⟨[], .finished, signal, serving⟩
  | loopHead {test todo signal serving} :
      ServerAt (.test test :: todo) ⟨.test test :: todo, .loopHead, signal, serving⟩
  | handshakeWait {item todo signal serving} :
      ServerAt (item :: todo) ⟨item :: todo, .handshakeWait, signal, serving⟩

inductive InStep : State → Prop where
  | opening {todo client server} (clientAt : ClientAt todo client) (serverAt : ServerAt todo server) :
      InStep ⟨client, server, none⟩
  | greeting {item todo signal count flag signal' serving} :
      InStep ⟨⟨item :: todo, .handshakeWait, signal, count, flag⟩,
        ⟨item :: todo, .handshakeWait, signal', serving⟩, some (.server, .handshakeReady)⟩
  | greeted {item todo signal count flag signal' serving} :
      InStep ⟨⟨item :: todo, .handshakeWait, signal, count, flag⟩,
        ⟨item :: todo, .handshakeSend, signal', serving⟩, none⟩
  -- the server is one item ahead
  | passing {todo signal count flag server} (serverAt : ServerAt todo server) :
      InStep ⟨⟨.handshake :: todo, .handshakeWait, signal, count, flag⟩, server,
        some (.client, .handshakeReady)⟩
  | answering {test todo signal count flag signal' serving} :
      InStep ⟨⟨.test test :: todo, .handshakeWait, signal, count, flag⟩,
        ⟨.test test :: todo, .readyWait, signal', serving⟩, some (.client, .handshakeReady)⟩
  | announcing {test todo signal count flag signal' serving} :
      InStep ⟨⟨.test test :: todo, .readySend, signal, count, flag⟩,
        ⟨.test test :: todo, .readyWait, signal', serving⟩, none⟩
  | announced {test todo signal count flag signal' serving} :
      InStep ⟨⟨.test test :: todo, .readyWait, signal, count, flag⟩,
        ⟨.test test :: todo, .readyWait, signal', serving⟩, some (.server, .ready)⟩
  | launching {test todo signal count flag signal' serving} :
      InStep ⟨⟨.test test :: todo, .readyWait, signal, count, flag⟩,
        ⟨.test test :: todo, .startServer, signal', serving⟩, none⟩
  | launched {test todo signal count flag signal'} :
      InStep ⟨⟨.test test :: todo, .readyWait, signal, count, flag⟩,
        ⟨.test test :: todo, .readySend, signal', some test⟩, none⟩
  | offering {test todo signal count flag signal'} :
      InStep ⟨⟨.test test :: todo, .readyWait, signal, count, flag⟩,
        ⟨.test test :: todo, .statusWait, signal', some test⟩, some (.client, .ready)⟩
  | dispatching {test todo count flag signal'} :
      InStep ⟨⟨.test test :: todo, .dispatch, some .ready, count, flag⟩,
        ⟨.test test :: todo, .statusWait, signal', some test⟩, none⟩
  | measuring {test todo signal count flag signal'} :
      InStep ⟨⟨.test test :: todo, .measure, signal, count, flag⟩,
        ⟨.test test :: todo, .statusWait, signal', some test⟩, none⟩
  | reporting {test todo signal count signal'} :
      InStep ⟨⟨.test test :: todo, .report, signal, count, false⟩,
        ⟨.test test :: todo, .statusWait, signal', some test⟩, none⟩
  -- the client is one item ahead
  | completing {test todo signal' client} (clientAt : ClientAt todo client) :
      InStep ⟨client, ⟨.test test :: todo, .statusWait, signal', some test⟩, some (.server, .complete)⟩
  | checking {test todo client} (clientAt : ClientAt todo client) :
      InStep ⟨client, ⟨.test test :: todo, .statusCheck, some .complete, some test⟩, none⟩

inductive Lost : State → Prop where
  | reporting {test todo signal count signal' serving} :
      Lost ⟨⟨.test test :: todo, .report, signal, count, true⟩,
        ⟨.test test :: todo, .statusWait, signal', serving⟩, none⟩
  | reported {test todo signal count flag signal' serving} :
      Lost ⟨⟨.test test :: todo, .handshakeSend, signal, count, flag⟩,
        ⟨.test test :: todo, .statusWait, signal', serving⟩, some (.server, .failed)⟩
  | retrying {test todo signal count flag signal' serving} :
      Lost ⟨⟨.test test :: todo, .handshakeSend, signal, count, flag⟩,
        ⟨.test test :: todo, .statusWait, signal', serving⟩, none⟩
  | retried {test todo signal count flag signal' serving} :
      Lost ⟨⟨.test test :: todo, .handshakeWait, signal, count, flag⟩,
        ⟨.test test :: todo, .statusWait, signal', serving⟩, some (.server, .handshakeReady)⟩
  | deadlocked {test todo signal count flag signal' serving} :
      Lost ⟨⟨.test test :: todo, .handshakeWait, signal, count, flag⟩,
        ⟨.test test :: todo, .statusWait, signal', serving⟩, none⟩

theorem clientEnterAt (client : Client) (todo : List Item) : ClientAt todo (client.enter todo) := by
  cases todo with
  | nil => exact .finished
  | cons item rest => exact .handshakeSend

theorem serverEnterAt (server : Server) (todo : List Item) : ServerAt todo (server.enter todo) := by
  cases todo with
  | nil => exact .finished
  | cons item rest =>
    cases item with
    | handshake => exact .handshakeWait
    | test combination => exact .loopHead

theorem initialInStep (lists : Lists) : InStep (initial lists lists) :=
  .opening (clientEnterAt _ _) (serverEnterAt _ _)

variable {s s' : State}

theorem sendClientCases (moves : sendStep s .client = some s') :
    s.flight = none ∧ s.server.listening.isSome ∧ ∃ message, s.client.sending = some message ∧
      s' = ⟨s.client.sent, s.server, some (.server, message)⟩ := by
  simp only [sendStep] at moves
  split at moves
  · next free =>
    obtain ⟨message, posts, rfl⟩ := Option.map_eq_some_iff.mp moves
    exact ⟨free.1, free.2, message, posts, rfl⟩
  · cases moves

theorem sendServerCases (moves : sendStep s .server = some s') :
    s.flight = none ∧ s.client.listening.isSome ∧ ∃ message, s.server.sending = some message ∧
      s' = ⟨s.client, s.server.sent, some (.client, message)⟩ := by
  simp only [sendStep] at moves
  split at moves
  · next free =>
    obtain ⟨message, posts, rfl⟩ := Option.map_eq_some_iff.mp moves
    exact ⟨free.1, free.2, message, posts, rfl⟩
  · cases moves

theorem deliverCases (moves : deliverStep s = some s') :
    (∃ message loop, s.flight = some (.client, message) ∧ s.client.listening = some loop ∧
      s' = ⟨s.client.receive loop message, s.server, none⟩) ∨
    (∃ message loop, s.flight = some (.server, message) ∧ s.server.listening = some loop ∧
      s' = ⟨s.client, s.server.receive loop message, none⟩) := by
  unfold deliverStep at moves
  split at moves
  · cases moves
  · next message flies =>
    obtain ⟨loop, listens, rfl⟩ := Option.map_eq_some_iff.mp moves
    exact .inl ⟨message, loop, flies, listens, rfl⟩
  · next message flies =>
    obtain ⟨loop, listens, rfl⟩ := Option.map_eq_some_iff.mp moves
    exact .inr ⟨message, loop, flies, listens, rfl⟩

theorem inStepSendClient (aligned : InStep s) (moves : sendStep s .client = some s') : InStep s' := by
  obtain ⟨free, listens, message, posts, rfl⟩ := sendClientCases moves
  cases aligned with
  | opening clientAt serverAt =>
    cases serverAt with
    | handshakeWait =>
      cases clientAt
      cases posts
      exact .greeting
    | finished => cases listens
    | loopHead => cases listens
  | announcing =>
    cases posts
    exact .announced
  | reporting =>
    cases posts
    exact .completing (clientEnterAt _ _)
  | checking clientAt => cases listens
  | _ => first | cases posts | cases free

theorem inStepSendServer (aligned : InStep s) (moves : sendStep s .server = some s') : InStep s' := by
  obtain ⟨free, listens, message, posts, rfl⟩ := sendServerCases moves
  cases aligned with
  | opening clientAt serverAt => cases clientAt <;> cases listens
  | @greeted item =>
    cases posts
    cases item with
    | handshake => exact .passing (serverEnterAt _ _)
    | test combination => exact .answering
  | launched =>
    cases posts
    exact .offering
  | _ => first | cases posts | cases free

theorem inStepDeliver (aligned : InStep s) (moves : deliverStep s = some s') : InStep s' := by
  obtain ⟨message, loop, flies, listens, rfl⟩ | ⟨message, loop, flies, listens, rfl⟩ := deliverCases moves
  · cases aligned with
    | passing serverAt =>
      cases flies
      cases listens
      exact .opening (clientEnterAt _ _) serverAt
    | answering =>
      cases flies
      cases listens
      exact .announcing
    | offering =>
      cases flies
      cases listens
      exact .dispatching
    | _ => cases flies
  · cases aligned with
    | greeting =>
      cases flies
      cases listens
      exact .greeted
    | announced =>
      cases flies
      cases listens
      exact .launching
    | completing clientAt =>
      cases flies
      cases listens
      exact .checking clientAt
    | _ => cases flies

theorem inStepDispatch (aligned : InStep s) (dispatches : s.client.point = .dispatch) :
    InStep { s with client := s.client.dispatched } := by
  cases aligned with
  | opening clientAt serverAt => cases clientAt <;> cases dispatches
  | completing clientAt => cases clientAt <;> cases dispatches
  | checking clientAt => cases clientAt <;> cases dispatches
  | @dispatching test =>
    obtain ⟨runNum, testType, outer, inner⟩ := test
    cases testType <;> exact .measuring
  | _ => cases dispatches

theorem inStepAttempt (aligned : InStep s) (measures : s.client.point = .measure) (passed : Bool)
    (within : exhausts s (.attempt passed) = false) :
    InStep { s with client := s.client.attempted passed } := by
  cases aligned with
  | opening clientAt serverAt => cases clientAt <;> cases measures
  | completing clientAt => cases clientAt <;> cases measures
  | checking clientAt => cases clientAt <;> cases measures
  | @measuring _ _ _ count =>
    cases passed with
    | true => exact .reporting
    | false =>
      have below : count ≠ 3000 := by simpa [exhausts] using within
      simp only [Client.attempted, Bool.false_eq_true, if_false, if_pos below]
      exact .measuring
  | _ => cases measures

theorem inStepCompute (aligned : InStep s) {server : Server} (computes : s.server.computed = some server) :
    InStep { s with server := server } := by
  cases aligned with
  | opening clientAt serverAt =>
    cases serverAt with
    | loopHead =>
      cases computes
      exact .opening clientAt .handshakeWait
    | finished => cases computes
    | handshakeWait => cases computes
  | passing serverAt =>
    cases serverAt with
    | loopHead =>
      cases computes
      exact .passing .handshakeWait
    | finished => cases computes
    | handshakeWait => cases computes
  | launching =>
    cases computes
    exact .launched
  | checking clientAt =>
    cases computes
    exact .opening clientAt (serverEnterAt _ _)
  | _ => cases computes

theorem inStepStep {a : Action} (aligned : InStep s) (within : exhausts s a = false)
    (moves : step s a = some s') : InStep s' := by
  cases a with
  | send sender =>
    cases sender with
    | client => exact inStepSendClient aligned moves
    | server => exact inStepSendServer aligned moves
  | deliver => exact inStepDeliver aligned moves
  | dispatch =>
    simp only [step, Option.ite_none_right_eq_some] at moves
    obtain ⟨dispatches, same⟩ := moves
    cases same
    exact inStepDispatch aligned dispatches
  | attempt passed =>
    simp only [step, Option.ite_none_right_eq_some] at moves
    obtain ⟨measures, same⟩ := moves
    cases same
    exact inStepAttempt aligned measures passed within
  | compute =>
    obtain ⟨server, computes, rfl⟩ := Option.map_eq_some_iff.mp moves
    exact inStepCompute aligned computes

theorem inStepRuns (aligned : InStep s) : ¬ Deadlocked s := by
  rintro ⟨clientListens, serverListens, free⟩
  cases aligned with
  | opening clientAt serverAt => cases clientAt <;> cases clientListens
  | checking clientAt => cases serverListens
  | _ => first | (cases free; done) | (cases clientListens; done) | cases serverListens

theorem inStepProgress (aligned : InStep s) : Finished s ∨ ∃ a s', step s a = some s' := by
  cases aligned with
  | opening clientAt serverAt =>
    cases serverAt with
    | finished =>
      cases clientAt
      exact .inl ⟨rfl, rfl⟩
    | loopHead => exact .inr ⟨.compute, _, rfl⟩
    | handshakeWait =>
      cases clientAt
      exact .inr ⟨.send .client, _, rfl⟩
  | greeting => exact .inr ⟨.deliver, _, rfl⟩
  | greeted => exact .inr ⟨.send .server, _, rfl⟩
  | passing serverAt => exact .inr ⟨.deliver, _, rfl⟩
  | answering => exact .inr ⟨.deliver, _, rfl⟩
  | announcing => exact .inr ⟨.send .client, _, rfl⟩
  | announced => exact .inr ⟨.deliver, _, rfl⟩
  | launching => exact .inr ⟨.compute, _, rfl⟩
  | launched => exact .inr ⟨.send .server, _, rfl⟩
  | offering => exact .inr ⟨.deliver, _, rfl⟩
  | dispatching => exact .inr ⟨.dispatch, _, rfl⟩
  | measuring => exact .inr ⟨.attempt true, _, rfl⟩
  | reporting => exact .inr ⟨.send .client, _, rfl⟩
  | completing clientAt => exact .inr ⟨.deliver, _, rfl⟩
  | checking clientAt => exact .inr ⟨.compute, _, rfl⟩

theorem exhaustsCases {a : Action} (gives : exhausts s a = true) :
    a = .attempt false ∧ s.client.point = .measure ∧ s.client.failCounter = 3000 := by
  cases a with
  | attempt passed =>
    cases passed with
    | true => cases gives
    | false =>
      simp only [exhausts, Bool.and_eq_true, decide_eq_true_eq] at gives
      exact ⟨rfl, gives.1, gives.2⟩
  | _ => cases gives

theorem exhaustedLost {a : Action} (aligned : InStep s) (gives : exhausts s a = true)
    (moves : step s a = some s') : Lost s' := by
  obtain ⟨rfl, measures, limit⟩ := exhaustsCases gives
  simp only [step, if_pos measures] at moves
  cases moves
  cases aligned with
  | opening clientAt serverAt => cases clientAt <;> cases measures
  | completing clientAt => cases clientAt <;> cases measures
  | checking clientAt => cases clientAt <;> cases measures
  | measuring =>
    cases limit
    exact .reporting
  | _ => cases measures

theorem lostSendClient (lost : Lost s) (moves : sendStep s .client = some s') : Lost s' := by
  obtain ⟨free, listens, message, posts, rfl⟩ := sendClientCases moves
  cases lost with
  | reporting =>
    cases posts
    exact .reported
  | retrying =>
    cases posts
    exact .retried
  | _ => first | (cases posts; done) | cases free

theorem lostDeliver (lost : Lost s) (moves : deliverStep s = some s') : Lost s' := by
  obtain ⟨message, loop, flies, listens, rfl⟩ | ⟨message, loop, flies, listens, rfl⟩ := deliverCases moves
  · cases lost <;> cases flies
  · cases lost with
    | reported =>
      cases flies
      cases listens
      exact .retrying
    | retried =>
      cases flies
      cases listens
      exact .deadlocked
    | _ => cases flies

theorem lostStep {a : Action} (lost : Lost s) (moves : step s a = some s') : Lost s' := by
  cases a with
  | send sender =>
    cases sender with
    | client => exact lostSendClient lost moves
    | server =>
      obtain ⟨free, listens, message, posts, rfl⟩ := sendServerCases moves
      cases lost <;> cases posts
  | deliver => exact lostDeliver lost moves
  | dispatch => cases lost <;> cases moves
  | attempt passed => cases lost <;> cases moves
  | compute => cases lost <;> cases moves

theorem lostDeadlocks (lost : Lost s) :
    ∃ more later, Run.execute step s more = some later ∧ Deadlocked later := by
  cases lost with
  | reporting =>
    exact ⟨[.send .client, .deliver, .send .client, .deliver], _, rfl, rfl, rfl, rfl⟩
  | reported => exact ⟨[.deliver, .send .client, .deliver], _, rfl, rfl, rfl, rfl⟩
  | retrying => exact ⟨[.send .client, .deliver], _, rfl, rfl, rfl, rfl⟩
  | retried => exact ⟨[.deliver], _, rfl, rfl, rfl, rfl⟩
  | deadlocked => exact ⟨[], _, rfl, rfl, rfl, rfl⟩

theorem clientListens (listens : s.client.listening.isSome) :
    s.client.point = .handshakeWait ∨ s.client.point = .readyWait := by
  unfold Client.listening at listens
  cases here : s.client.point <;> simp [here] at listens ⊢

theorem serverListens (listens : s.server.listening.isSome) :
    s.server.sending = none ∧ s.server.computed = none := by
  unfold Server.listening at listens
  unfold Server.sending Server.computed
  cases here : s.server.point <;> simp [here] at listens ⊢

theorem deadlockedStuck (stuck : Deadlocked s) (a : Action) : step s a = none := by
  obtain ⟨listens, serves, free⟩ := stuck
  have silent := serverListens serves
  cases a with
  | send sender =>
    cases sender with
    | client =>
      have quiet : s.client.sending = none := by
        rcases clientListens listens with here | here <;> simp [Client.sending, here]
      simp [step, sendStep, quiet]
    | server => simp [step, sendStep, silent.1]
  | deliver => simp [step, deliverStep, free]
  | dispatch => rcases clientListens listens with here | here <;> simp [step, here]
  | attempt passed => rcases clientListens listens with here | here <;> simp [step, here]
  | compute => simp [step, silent.2]

theorem runPositions {lists : Lists} {actions : List Action}
    (run : Run.execute step (initial lists lists) actions = some s) :
    (Run.takes exhausts step (initial lists lists) actions = false → InStep s) ∧
    (Run.takes exhausts step (initial lists lists) actions = true → Lost s) :=
  Run.executeKeeps inStepStep exhaustedLost lostStep run (initialInStep lists)

def DeadlockFree (lists : Lists) : Prop :=
  ∀ actions s, Run.execute step (initial lists lists) actions = some s → ¬ Deadlocked s

theorem deadlockAfterGivingUp (lists : Lists) (actions : List Action) (s : State)
    (run : Run.execute step (initial lists lists) actions = some s) :
    (Run.takes exhausts step (initial lists lists) actions = false → ¬ Deadlocked s) ∧
    (Run.takes exhausts step (initial lists lists) actions = true →
      ∃ more later, Run.execute step s more = some later ∧ Deadlocked later) := by
  have positions := runPositions run
  constructor
  · intro kept
    exact inStepRuns (positions.1 kept)
  · intro gave
    exact lostDeadlocks (positions.2 gave)

def oneCombination : Lists := ⟨["mldsa44"], ["mlkem512"], [], [], [], [], 1⟩

def toFirstTest : List Action :=
  [.send .client, .deliver, .send .server, .deliver, .send .client, .deliver, .send .server, .compute,
    .deliver, .send .client, .deliver, .send .server, .deliver, .send .client, .deliver, .compute,
    .send .server, .deliver, .dispatch]

theorem deadlockAfterGivingUpOne :
    (Run.takes exhausts step (initial oneCombination oneCombination) toFirstTest = false →
      ¬ Deadlocked ((Run.execute step (initial oneCombination oneCombination) toFirstTest).get rfl)) ∧
    (Run.takes exhausts step (initial oneCombination oneCombination) toFirstTest = true →
      ∃ more later, Run.execute step
        ((Run.execute step (initial oneCombination oneCombination) toFirstTest).get rfl) more = some later ∧
        Deadlocked later) :=
  deadlockAfterGivingUp oneCombination toFirstTest _ rfl

theorem attemptsFail (failures : Nat) (measures : s.client.point = .measure)
    (within : s.client.failCounter + failures ≤ 3000) :
    Run.execute step s (List.replicate failures (.attempt false)) =
      some { s with client := { s.client with failCounter := s.client.failCounter + failures } } := by
  induction failures generalizing s with
  | zero => rfl
  | succ failures ih =>
    have below : s.client.failCounter ≠ 3000 := by omega
    have failed : step s (.attempt false) =
        some { s with client := { s.client with failCounter := s.client.failCounter + 1 } } := by
      simp only [step, if_pos measures, Client.attempted, Bool.false_eq_true, if_false, if_pos below]
    have later := @ih { s with client := { s.client with failCounter := s.client.failCounter + 1 } }
      measures (by simp only []; omega)
    rw [List.replicate_succ, Run.execute, failed, Option.bind_some, later]
    simp only [Nat.add_assoc, Nat.add_comm 1]

theorem firstFailureDeadlocks : ¬ DeadlockFree oneCombination := by
  intro free
  have tests : Run.execute step (initial oneCombination oneCombination) toFirstTest =
      some ((Run.execute step (initial oneCombination oneCombination) toFirstTest).get rfl) := rfl
  have fails := Run.executeThen tests (attemptsFail 3000 rfl (Nat.le_refl 3000))
  let givingUp : List Action := [.attempt false, .send .client, .deliver, .send .client, .deliver]
  have stops := @Run.executeThen _ _ step _ _ _ _ givingUp fails rfl
  exact free _ _ stops ⟨rfl, rfl, rfl⟩

end Armor.Tls
