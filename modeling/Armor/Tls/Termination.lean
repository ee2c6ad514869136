import Armor.Tls.Redelivery
import Mathlib.Tactic.Ring

/-! Every run of the two scripts ends. Until a test gives up each step but a failing `s_time` brings
both parties closer to the end, and a test fails at most 3000 times before its last attempt. -/
namespace Armor.Tls

def Item.clientWork : Item → Nat
  | .handshake => 2
  | .test _ => 8

def Item.serverWork : Item → Nat
  | .handshake => 2
  | .test _ => 7

def Item.tries : Item → Nat
  | .handshake => 0
  | .test _ => 3000

def clientRest (items : List Item) : Nat := (items.map Item.clientWork).sum

def serverRest (items : List Item) : Nat := (items.map Item.serverWork).sum

def triesRest (items : List Item) : Nat := (items.map Item.tries).sum

def ClientPoint.done : ClientPoint → Nat
  | .handshakeWait => 2
  | .readySend => 2
  | .readyWait => 4
  | .dispatch => 4
  | .measure => 5
  | .report => 6
  | .skipReport => 6
  | _ => 0

def ServerPoint.done : ServerPoint → Nat
  | .handshakeWait => 1
  | .handshakeSend => 1
  | .readyWait => 3
  | .startServer => 3
  | .readySend => 4
  | .statusWait => 6
  | .statusCheck => 6
  | _ => 0

def Client.left (c : Client) : Nat :=
  match c.todo with
  | [] => 0
  | item :: rest => (item.clientWork - c.point.done) + clientRest rest

def Server.left (s : Server) : Nat :=
  match s.todo with
  | [] => 0
  | .handshake :: rest => 2 + serverRest rest
  | .test _ :: rest => (7 - s.point.done) + serverRest rest

def State.flying (s : State) : Nat := if s.flight.isSome then 1 else 0

def State.left (s : State) : Nat := s.client.left + s.server.left + s.flying

def Client.failed (c : Client) : Nat :=
  match c.point with
  | .measure => c.failCounter
  | .report => 3000
  | _ => 0

def Client.tries (c : Client) : Nat :=
  match c.todo with
  | [] => 0
  | item :: rest => (item.tries - c.failed) + triesRest rest

def State.sinking (s : State) : Nat :=
  match s.client.point with
  | .report => 4
  | .handshakeSend => 2 + s.flying
  | _ => s.flying

def Action.fails : Action → Bool
  | .attempt false => true
  | _ => false

def Action.gain (a : Action) : Nat := if a.fails then 0 else 1

def Action.loss (a : Action) : Nat := if a.fails then 1 else 0

def Client.Within (c : Client) : Prop := c.point = .measure → c.failCounter ≤ 3000

structure Spends (s : State) (a : Action) (s' : State) : Prop where
  left : s'.left + a.gain = s.left
  tries : s'.client.tries + a.loss ≤ s.client.tries
  within : s'.client.Within

attribute [local simp] Item.clientWork Item.serverWork Item.tries ClientPoint.done ServerPoint.done Client.left
  Server.left State.flying State.left Client.failed Client.tries Action.fails Action.gain Action.loss Client.Within

@[simp] theorem clientRestCons (item : Item) (rest : List Item) :
    clientRest (item :: rest) = item.clientWork + clientRest rest := rfl

@[simp] theorem serverRestCons (item : Item) (rest : List Item) :
    serverRest (item :: rest) = item.serverWork + serverRest rest := rfl

@[simp] theorem triesRestCons (item : Item) (rest : List Item) :
    triesRest (item :: rest) = item.tries + triesRest rest := rfl

theorem clientEnterLeft (client : Client) (todo : List Item) :
    (client.enter todo).left = clientRest todo ∧ (client.enter todo).tries = triesRest todo ∧
      (client.enter todo).Within := by
  cases todo with
  | nil => exact ⟨rfl, rfl, fun measures => by cases measures⟩
  | cons item rest => simp [Client.enter]

theorem clientAtWithin {todo : List Item} {client : Client} (clientAt : ClientAt todo client) : client.Within := by
  cases clientAt <;> exact fun measures => by cases measures

theorem serverEnterLeft (server : Server) (todo : List Item) : (server.enter todo).left = serverRest todo := by
  cases todo with
  | nil => rfl
  | cons item rest => cases item <;> simp [Server.enter]

variable {s s' : State}

theorem spendsSendClient (aligned : InStep s) (moves : sendStep s .client = some s') :
    Spends s (.send .client) s' := by
  obtain ⟨free, listens, message, posts, rfl⟩ := sendClientCases moves
  cases aligned with
  | opening clientAt serverAt =>
    cases serverAt with
    | @handshakeWait item =>
      cases clientAt
      cases posts
      cases item <;> constructor <;> simp [Client.sent] <;> omega
    | finished => cases listens
    | loopHead => cases listens
  | announcing =>
    cases posts
    constructor <;> simp [Client.sent]; omega
  | @reporting test todo signal count =>
    cases posts
    obtain ⟨left, tries, within⟩ := clientEnterLeft ⟨.test test :: todo, .report, signal, count, false⟩ todo
    constructor
    · simp only [State.left, Client.sent, Bool.false_eq_true, if_false, List.tail_cons, left]
      simp; omega
    · simp only [Client.sent, Bool.false_eq_true, if_false, List.tail_cons, tries]
      simp
    · exact within
  | checking clientAt => cases listens
  | _ => first | cases posts | cases free

theorem spendsSendServer (aligned : InStep s) (moves : sendStep s .server = some s') :
    Spends s (.send .server) s' := by
  obtain ⟨free, listens, message, posts, rfl⟩ := sendServerCases moves
  cases aligned with
  | opening clientAt serverAt => cases clientAt <;> cases listens
  | @greeted item todo signal count flag signal' serving =>
    cases posts
    cases item with
    | handshake =>
      have left := serverEnterLeft ⟨.handshake :: todo, .handshakeSend, signal', serving⟩ todo
      constructor
      · simp only [State.left, Server.sent, List.tail_cons, left]
        simp; omega
      · simp
      · simp
    | test combination => constructor <;> simp [Server.sent]; omega
  | launched =>
    cases posts
    constructor <;> simp [Server.sent]; omega
  | _ => first | cases posts | cases free

theorem spendsDeliver (aligned : InStep s) (moves : deliverStep s = some s') : Spends s .deliver s' := by
  obtain ⟨message, loop, flies, listens, rfl⟩ | ⟨message, loop, flies, listens, rfl⟩ := deliverCases moves
  · cases aligned with
    | @passing todo signal count flag server serverAt =>
      cases flies
      cases listens
      obtain ⟨left, tries, within⟩ :=
        clientEnterLeft ⟨.handshake :: todo, .handshakeWait, some .handshakeReady, count, flag⟩ todo
      constructor
      · simp only [State.left, Client.receive, Listening.accepts, if_true, Client.accepted, List.tail_cons, left]
        simp
      · simp only [Client.receive, Listening.accepts, if_true, Client.accepted, List.tail_cons, tries]
        simp
      · exact within
    | answering =>
      cases flies
      cases listens
      constructor <;> simp [Client.receive, Listening.accepts, Client.accepted]
    | offering =>
      cases flies
      cases listens
      constructor <;> simp [Client.receive, Listening.accepts, Client.accepted]
    | _ => cases flies
  · cases aligned with
    | greeting =>
      cases flies
      cases listens
      constructor <;> simp [Server.receive, Listening.accepts, Server.accepted]
    | announced =>
      cases flies
      cases listens
      constructor <;> simp [Server.receive, Listening.accepts, Server.accepted]
    | completing clientAt =>
      cases flies
      cases listens
      have within := clientAtWithin clientAt
      constructor <;> simp [Server.receive, Listening.accepts, Server.accepted]
      exact within
    | _ => cases flies

theorem spendsDispatch (aligned : InStep s) (dispatches : s.client.point = .dispatch) :
    Spends s .dispatch { s with client := s.client.dispatched } := by
  cases aligned with
  | opening clientAt serverAt => cases clientAt <;> cases dispatches
  | completing clientAt => cases clientAt <;> cases dispatches
  | checking clientAt => cases clientAt <;> cases dispatches
  | @dispatching test todo count flag =>
    have measured : Client.dispatched ⟨.test test :: todo, .dispatch, some .ready, count, flag⟩ =
        ⟨.test test :: todo, .measure, some .ready, 0, flag⟩ := by
      obtain ⟨runNum, testType, outer, inner⟩ := test
      cases testType <;> rfl
    constructor
    · simp [measured]; omega
    · simp [measured]
    · simp [measured]
  | _ => cases dispatches

theorem spendsAttempt (aligned : InStep s) (measures : s.client.point = .measure) (bounded : s.client.Within)
    (passed : Bool) (within : exhausts s (.attempt passed) = false) :
    Spends s (.attempt passed) { s with client := s.client.attempted passed } := by
  cases aligned with
  | opening clientAt serverAt => cases clientAt <;> cases measures
  | completing clientAt => cases clientAt <;> cases measures
  | checking clientAt => cases clientAt <;> cases measures
  | @measuring _ _ _ count =>
    have le : count ≤ 3000 := bounded rfl
    cases passed with
    | true =>
      constructor
      · simp [Client.attempted]; omega
      · simp [Client.attempted]
      · simp [Client.attempted]
    | false =>
      have below : count ≠ 3000 := by simpa [exhausts] using within
      constructor
      · simp [Client.attempted, below]
      · simp [Client.attempted, below]; omega
      · simp [Client.attempted, below]; omega
  | _ => cases measures

theorem spendsCompute (aligned : InStep s) (bounded : s.client.Within) {server : Server}
    (computes : s.server.computed = some server) : Spends s .compute { s with server := server } := by
  have tries : s.client.tries + Action.compute.loss ≤ s.client.tries := Nat.le_refl _
  refine ⟨?_, tries, bounded⟩
  cases aligned with
  | opening clientAt serverAt =>
    cases serverAt with
    | loopHead =>
      cases computes
      simp; omega
    | finished => cases computes
    | handshakeWait => cases computes
  | passing serverAt =>
    cases serverAt with
    | loopHead =>
      cases computes
      simp; omega
    | finished => cases computes
    | handshakeWait => cases computes
  | launching =>
    cases computes
    simp; omega
  | @checking test todo client =>
    cases computes
    change client.left + (Server.enter _ todo).left + 0 + 1 = client.left + (1 + serverRest todo) + 0
    rw [serverEnterLeft]
    omega
  | _ => cases computes

theorem spendsStep {a : Action} (aligned : InStep s) (bounded : s.client.Within) (within : exhausts s a = false)
    (moves : step s a = some s') : Spends s a s' := by
  cases a with
  | send sender =>
    cases sender with
    | client => exact spendsSendClient aligned moves
    | server => exact spendsSendServer aligned moves
  | deliver => exact spendsDeliver aligned moves
  | dispatch =>
    simp only [step, Option.ite_none_right_eq_some] at moves
    obtain ⟨dispatches, same⟩ := moves
    cases same
    exact spendsDispatch aligned dispatches
  | attempt passed =>
    simp only [step, Option.ite_none_right_eq_some] at moves
    obtain ⟨measures, same⟩ := moves
    cases same
    exact spendsAttempt aligned measures bounded passed within
  | compute =>
    obtain ⟨server, computes, rfl⟩ := Option.map_eq_some_iff.mp moves
    exact spendsCompute aligned bounded computes

theorem measuringLeft (aligned : InStep s) (measures : s.client.point = .measure) : 4 ≤ s.left := by
  cases aligned with
  | opening clientAt serverAt => cases clientAt <;> cases measures
  | completing clientAt => cases clientAt <;> cases measures
  | checking clientAt => cases clientAt <;> cases measures
  | measuring => simp; omega
  | _ => cases measures

theorem lostSinking (lost : Lost s) : s.sinking ≤ 4 := by
  cases lost <;> simp [State.sinking]

theorem sinkingStep {a : Action} (lost : Lost s) (moves : step s a = some s') : s'.sinking + 1 = s.sinking := by
  cases a with
  | send sender =>
    cases sender with
    | client =>
      obtain ⟨free, listens, message, posts, rfl⟩ := sendClientCases moves
      cases lost with
      | reporting => simp [State.sinking, Client.sent]
      | retrying => simp [State.sinking, Client.sent]
      | _ => first | (cases posts; done) | cases free
    | server =>
      obtain ⟨free, listens, message, posts, rfl⟩ := sendServerCases moves
      cases lost <;> cases posts
  | deliver =>
    obtain ⟨message, loop, flies, listens, rfl⟩ | ⟨message, loop, flies, listens, rfl⟩ := deliverCases moves
    · cases lost <;> cases flies
    · cases lost with
      | reported => simp [State.sinking]
      | retried => simp [State.sinking]
      | _ => cases flies
  | dispatch => cases lost <;> cases moves
  | attempt passed => cases lost <;> cases moves
  | compute => cases lost <;> cases moves

theorem lostStuck (lost : Lost s) (stuck : ∀ a, step s a = none) : Deadlocked s := by
  cases lost with
  | reporting => cases stuck (.send .client)
  | reported => cases stuck .deliver
  | retrying => cases stuck (.send .client)
  | retried => cases stuck .deliver
  | deadlocked => exact ⟨rfl, rfl, rfl⟩

def handshakes (lists : Lists) : Nat := 1 + 3 * lists.numRun

theorem itemsSum (work : Item → Nat) {each : Nat} (same : ∀ test, work (.test test) = each) (items : List Item) :
    (items.map work).sum = work .handshake * items.count .handshake + each * (tests items).length := by
  induction items with
  | nil => simp [tests]
  | cons item rest ih =>
    rw [List.map_cons, List.sum_cons, ih]
    cases item with
    | handshake =>
      rw [List.count_cons_self, tests]
      ring
    | test combination =>
      rw [List.count_cons_of_ne (by simp), tests, List.length_cons, same]
      ring

theorem loopTestsCount (runNum : Nat) (testType : TestType) (outer inner : List String) :
    (loopTests runNum testType outer inner).count .handshake = 0 := by
  rw [List.count_eq_zero, loopTests]
  simp

theorem entrypointCount (lists : Lists) : (testEntrypoint lists).count .handshake = handshakes lists := by
  have turns : ∀ first count, ((List.range' first count).flatMap fun runNum => .handshake :: pqcTests lists runNum
      ++ .handshake :: hybridTests lists runNum ++ .handshake :: classicTests lists runNum).count .handshake =
      3 * count := by
    intro first count
    induction count generalizing first with
    | zero => rfl
    | succ count ih =>
      rw [List.range'_succ, List.flatMap_cons, List.count_append, ih]
      simp only [pqcTests, hybridTests, classicTests, List.cons_append, List.count_cons_self, List.count_append,
        loopTestsCount]
      omega
  rw [testEntrypoint, List.count_cons_self, turns, handshakes, Nat.add_comm]

theorem entrypointSum (work : Item → Nat) {each : Nat} (same : ∀ test, work (.test test) = each) (lists : Lists) :
    ((testEntrypoint lists).map work).sum = work .handshake * handshakes lists + each * (combinations lists).length := by
  rw [itemsSum work same, entrypointCount, testsEntrypoint]

structure Steady (lists : Lists) (s : State) (past : List Action) : Prop where
  aligned : InStep s
  within : s.client.Within
  spent : past.length + s.left = 4 * handshakes lists + 15 * (combinations lists).length + past.countP Action.fails
  failed : past.countP Action.fails + s.client.tries ≤ 3000 * (combinations lists).length

structure Sinking (lists : Lists) (s : State) (past : List Action) : Prop where
  lost : Lost s
  spent : past.length + s.sinking ≤ 4 * handshakes lists + 3015 * (combinations lists).length + 1

theorem initialSteady (lists : Lists) : Steady lists (initial lists lists) [] := by
  obtain ⟨left, tries, within⟩ := clientEnterLeft ⟨[], .finished, none, 0, false⟩ (testEntrypoint lists)
  refine ⟨initialInStep lists, within, ?_, ?_⟩
  · simp only [State.left, State.flying, initial, left, serverEnterLeft, clientRest, serverRest]
    rw [entrypointSum Item.clientWork (fun _ => rfl), entrypointSum Item.serverWork (fun _ => rfl)]
    simp; omega
  · simp only [initial, tries, triesRest]
    rw [entrypointSum Item.tries (fun _ => rfl)]
    simp

theorem steadyStep {lists : Lists} {a : Action} {past : List Action} (steady : Steady lists s past)
    (within : exhausts s a = false) (moves : step s a = some s') : Steady lists s' (past ++ [a]) := by
  have spends := spendsStep steady.aligned steady.within within moves
  have left := spends.left
  have tries := spends.tries
  have spent := steady.spent
  have failed := steady.failed
  refine ⟨inStepStep steady.aligned within moves, spends.within, ?_, ?_⟩
  · rw [List.length_append, List.length_singleton, List.countP_append, List.countP_singleton]
    rw [Action.gain] at left
    cases fails : a.fails <;> simp only [fails, if_true, Bool.false_eq_true, if_false] at left ⊢ <;> omega
  · rw [List.countP_append, List.countP_singleton]
    change _ + a.loss + _ ≤ _
    omega

theorem steadyExhausts {lists : Lists} {a : Action} {past : List Action} (steady : Steady lists s past)
    (gives : exhausts s a = true) (moves : step s a = some s') : Sinking lists s' (past ++ [a]) := by
  have lost := exhaustedLost steady.aligned gives moves
  have sinks := lostSinking lost
  have left := measuringLeft steady.aligned (exhaustsCases gives).2.1
  have spent := steady.spent
  have failed := steady.failed
  refine ⟨lost, ?_⟩
  rw [List.length_append, List.length_singleton]
  omega

theorem sinkingKeeps {lists : Lists} {a : Action} {past : List Action} (sinking : Sinking lists s past)
    (moves : step s a = some s') : Sinking lists s' (past ++ [a]) := by
  refine ⟨lostStep sinking.lost moves, ?_⟩
  have sinks := sinkingStep sinking.lost moves
  have spent := sinking.spent
  rw [List.length_append, List.length_singleton]
  omega

theorem runSteady {lists : Lists} {actions : List Action}
    (run : Run.execute step (initial lists lists) actions = some s) :
    (Run.takes exhausts step (initial lists lists) actions = false → Steady lists s actions) ∧
    (Run.takes exhausts step (initial lists lists) actions = true → Sinking lists s actions) :=
  @Run.executeHistory State Action exhausts step (Steady lists) (Sinking lists) steadyStep steadyExhausts sinkingKeeps
    _ _ [] _ run (initialSteady lists)

theorem finishedEnds (aligned : InStep s) (ends : Finished s) : s.left = 0 ∧ ∀ a, step s a = none := by
  obtain ⟨clientEnds, serverEnds⟩ := ends
  cases aligned with
  | opening clientAt serverAt =>
    cases clientAt with
    | handshakeSend => cases clientEnds
    | finished =>
      cases serverAt
      refine ⟨rfl, fun a => ?_⟩
      cases a with
      | send sender => cases sender <;> rfl
      | _ => rfl
  | _ => first | cases clientEnds | cases serverEnds

theorem campaignEnds (lists : Lists) (actions : List Action) (s : State)
    (run : Run.execute step (initial lists lists) actions = some s) :
    actions.length ≤ 4 * handshakes lists + 3015 * (combinations lists).length + 1 ∧
    (Run.takes exhausts step (initial lists lists) actions = false → ((∀ a, step s a = none) ↔ Finished s) ∧
      (Finished s → actions.length = 4 * handshakes lists + 15 * (combinations lists).length + actions.countP Action.fails)) ∧
    (Run.takes exhausts step (initial lists lists) actions = true → ((∀ a, step s a = none) ↔ Deadlocked s)) := by
  have sides := runSteady run
  refine ⟨?_, fun kept => ⟨⟨fun stuck => ?_, fun ends => ?_⟩, fun ends => ?_⟩, fun gave => ⟨fun stuck => ?_, fun ends => ?_⟩⟩
  · cases gave : Run.takes exhausts step (initial lists lists) actions with
    | false =>
      have spent := (sides.1 gave).spent
      have failed := (sides.1 gave).failed
      omega
    | true =>
      have spent := (sides.2 gave).spent
      omega
  · rcases inStepProgress (sides.1 kept).aligned with ends | ⟨a, next, moves⟩
    · exact ends
    · rw [stuck a] at moves
      cases moves
  · exact (finishedEnds (sides.1 kept).aligned ends).2
  · have spent := (sides.1 kept).spent
    rwa [(finishedEnds (sides.1 kept).aligned ends).1, Nat.add_zero] at spent
  · exact lostStuck (sides.2 gave).lost stuck
  · exact fun a => deadlockedStuck ends a

def bareHandshake : List Action := [.send .client, .deliver, .send .server, .deliver]

def oneRetried : List Action :=
  toFirstTest ++ [.attempt false, .attempt true, .send .client, .deliver, .compute] ++ bareHandshake ++ bareHandshake

theorem campaignEndsOne : oneRetried.length =
    4 * handshakes oneCombination + 15 * (combinations oneCombination).length + oneRetried.countP Action.fails :=
  ((campaignEnds oneCombination oneRetried _ rfl).2.1 rfl).2 ⟨rfl, rfl⟩

end Armor.Tls
