/-
**`Session::start`, and who owns a session when it throws** (`src/session.cpp`, `RpcClient::connect` of
`src/client.cpp`, `TcpServer::accept_loop` of `src/server.cpp`).

`start` makes the socket non-blocking and registers it, and each of its three system calls can fail. Both owners
hold the session before they start it: `connect` in `session_`, `accept_loop` in `sessions_`. The environment
says what `getaddrinfo`, `socket`, `connect` and `accept4` answer, and which of the calls of `start` fails.

* `Session.start_of_starts` — without a failure, `start` returns with the session that `Session.started`
  describes;
* `Session.start_of_fails` — with one, it throws, and the session stays as it was constructed: open, not
  registered;
* `connectTcp_ok_iff` — `connect_tcp` returns the first socket that can be connected, and throws if there is
  none;
* `notKept_iff_starts` — **so a session that is not started is not kept exactly if none of the calls of `start`
  fails**;
* `ClientProcess.connect_again` — with a session that was not started, `connect` does nothing from then on;
* `Acceptor.accept_abstracts` — with one that was, a turn of `accept_loop` does what `ServerWorld.accept` does.
-/
import Insist.MiniRpc.ServerStart

namespace Insist.MiniRpc

variable {H Handler : Type}

/-- `EAGAIN`, which is `EWOULDBLOCK`. -/
def eagain : ℕ := 11

/-- `EINTR`. -/
def eintr : ℕ := 4

/-- `set_non_blocking`: how it ends. -/
def setNonBlocking (answers : Answers) : Outcome :=
  match answers .getFlags with
  | some code => .systemError code
  | none =>
      match answers .setFlags with
      | some code => .systemError code
      | none => .returned

/-- None of the calls of `Session::start` fails: the socket is not in the interest set, and the environment has
no other reason to refuse. -/
structure Starts (loop : HandlerTable Handler) (fd : ℤ) (answers : Answers) : Prop where
  getFlags : answers .getFlags = none
  setFlags : answers .setFlags = none
  epollAdd : answers .epollAdd = none
  fresh : loop.interest fd = none

theorem setNonBlocking_returned_iff {answers : Answers} :
    setNonBlocking answers = .returned ↔ answers .getFlags = none ∧ answers .setFlags = none := by
  unfold setNonBlocking
  cases answers .getFlags with
  | some code => simp
  | none => cases answers .setFlags <;> simp

/-! ### `Session::start` -/

namespace Session

/-- The constructor. -/
def constructed (fd : ℕ) : Session H := { socketFd := some fd }

/-- `socket_fd_`. -/
def fd (session : Session H) : ℤ := session.socketFd.elim (-1) Int.ofNat

@[simp] theorem fd_constructed (fd : ℕ) : (constructed fd : Session H).fd = fd := rfl

/-- `start`: the session, its loop, and how it ends. -/
def start (session : Session H) (loop : HandlerTable Handler) (handler : Handler) (answers : Answers) :
    Session H × HandlerTable Handler × Outcome :=
  match setNonBlocking answers with
  | .returned =>
      match loop.add session.fd (epollin ||| epollrdhup) handler (answers .epollAdd) with
      | (loop, .returned) =>
          ({ session with registered := true, interest := some { in_ := true, rdhup := true } },
            loop, .returned)
      | (loop, outcome) => (session, loop, outcome)
  | outcome => (session, loop, outcome)

variable {loop : HandlerTable Handler} {answers : Answers} {fd : ℕ}

/-- **Without a failure `start` returns**, and the session is a started one. -/
theorem start_of_starts (handler : Handler) (starts : Starts loop fd answers) :
    (constructed fd : Session H).start loop handler answers =
      (.started fd,
        { handlers := Function.update loop.handlers fd (some handler)
          interest := Function.update loop.interest fd (some (epollin ||| epollrdhup)) }, .returned) := by
  have set : MiniRpc.setNonBlocking answers = .returned :=
    setNonBlocking_returned_iff.mpr ⟨starts.getFlags, starts.setFlags⟩
  unfold start
  rw [set]
  simp only
  rw [starts.epollAdd, HandlerTable.add_eq, fd_constructed, ctlAdd_fresh _ _ starts.fresh]
  rfl

/-- **With a failure it throws**, and the session is as it was constructed. -/
theorem start_of_fails (handler : Handler) (fails : ¬ Starts loop fd answers) :
    ((constructed fd : Session H).start loop handler answers).1 = constructed fd ∧
      ((constructed fd : Session H).start loop handler answers).2.2 ≠ .returned := by
  unfold start
  by_cases set : MiniRpc.setNonBlocking answers = .returned
  · obtain ⟨getFlags, setFlags⟩ := setNonBlocking_returned_iff.mp set
    rw [set]
    simp only
    rw [HandlerTable.add_eq, fd_constructed]
    by_cases fresh : loop.interest fd = none
    · rw [ctlAdd_fresh _ _ fresh]
      cases refused : answers .epollAdd with
      | none => exact absurd ⟨getFlags, setFlags, refused, fresh⟩ fails
      | some code => exact ⟨rfl, Outcome.noConfusion⟩
    · rw [ctlAdd_registered _ _ fresh]
      exact ⟨rfl, Outcome.noConfusion⟩
  · generalize MiniRpc.setNonBlocking answers = outcome at set
    cases outcome with
    | returned => exact absurd rfl set
    | systemError code => exact ⟨rfl, set⟩
    | runtimeError => exact ⟨rfl, set⟩

/-- `start` returns exactly if none of its calls fails. -/
theorem start_returned_iff (handler : Handler) :
    ((constructed fd : Session H).start loop handler answers).2.2 = .returned ↔ Starts loop fd answers := by
  by_cases starts : Starts loop fd answers
  · rw [start_of_starts handler starts]
    exact iff_of_true rfl starts
  · exact iff_of_false (start_of_fails handler starts).2 starts

end Session

/-! ### `RpcClient::connect` -/

/-- What becomes of one of the addresses that `getaddrinfo` returns. -/
inductive Attempt
  | socketFailed (code : ℕ)
  | connectFailed (fd code : ℕ)
  | connected (fd : ℕ)
deriving DecidableEq, Repr

/-- The socket, if the address can be connected. -/
def Attempt.fd? : Attempt → Option ℕ
  | .connected fd => some fd
  | _ => none

/-- The loop of `connect_tcp`: the socket, `last_error`, and the sockets that it has closed. -/
def tryAddresses : List Attempt → ℕ → Option ℕ × ℕ × List ℕ
  | [], lastError => (none, lastError, [])
  | .socketFailed code :: rest, _ => tryAddresses rest code
  | .connectFailed fd code :: rest, _ =>
      let (socket, lastError, closed) := tryAddresses rest code
      (socket, lastError, fd :: closed)
  | .connected fd :: _, lastError => (some fd, lastError, [])

/-- `connect_tcp`; without addresses, `getaddrinfo` has failed. -/
def connectTcp : Option (List Attempt) → Except Outcome ℕ
  | none => .error .runtimeError
  | some attempts =>
      match tryAddresses attempts 0 with
      | (some fd, _, _) => .ok fd
      | (none, lastError, _) => .error (if lastError ≠ 0 then .systemError lastError else .runtimeError)

/-- The loop stops at the first address that can be connected. -/
theorem tryAddresses_socket (attempts : List Attempt) (lastError : ℕ) :
    (tryAddresses attempts lastError).1 = attempts.findSome? Attempt.fd? := by
  induction attempts generalizing lastError with
  | nil => rfl
  | cons attempt rest ih =>
      cases attempt with
      | socketFailed code => exact ih code
      | connectFailed fd code => exact ih code
      | connected fd => rfl

/-- **`connect_tcp` returns the first socket that can be connected**, and throws if there is none. -/
theorem connectTcp_ok_iff {resolution : Option (List Attempt)} {fd : ℕ} :
    connectTcp resolution = .ok fd ↔ (resolution.bind (List.findSome? Attempt.fd?)) = some fd := by
  cases resolution with
  | none => simp [connectTcp]
  | some attempts =>
      show _ ↔ attempts.findSome? Attempt.fd? = some fd
      rw [← tryAddresses_socket attempts 0]
      unfold connectTcp
      simp only
      obtain ⟨socket, lastError, closed⟩ := tryAddresses attempts 0
      cases socket with
      | none => simp
      | some other => simp

/-- The members of `RpcClient` that `connect` uses, and its loop. -/
structure ClientProcess (H Handler : Type) where
  /-- `session_`. -/
  session : Option (Session H) := none
  loop : HandlerTable Handler := {}

/-- What one call of `connect` meets: the addresses, if `getaddrinfo` does not fail, what becomes of them, and
which calls of `start` fail; and the handler of the new session. -/
structure Circumstances (Handler : Type) where
  resolution : Option (List Attempt)
  answers : Answers
  handler : Handler

/-- The first socket that can be connected. -/
def Circumstances.socket (call : Circumstances Handler) : Option ℕ :=
  call.resolution.bind (List.findSome? Attempt.fd?)

/-- What a call of `connect` leaves, how it ends, and whether it has tried to make a connection. -/
structure Connect (H Handler : Type) where
  process : ClientProcess H Handler
  outcome : Outcome
  attempted : Bool

namespace ClientProcess

/-- `connected`. -/
def connected (process : ClientProcess H Handler) : Bool := process.session.any Session.open_

/-- `connect`. -/
def connect (process : ClientProcess H Handler) (call : Circumstances Handler) : Connect H Handler :=
  if process.connected then { process := process, outcome := .returned, attempted := false }
  else
    match connectTcp call.resolution with
    | .error outcome => { process := process, outcome := outcome, attempted := true }
    | .ok fd =>
        -- `session_` is assigned before the session is started
        match (Session.constructed fd).start process.loop call.handler call.answers with
        | (session, loop, outcome) =>
            { process := { session := some session, loop := loop }, outcome := outcome, attempted := true }

/-- If `connect` throws, the client is not connected afterwards, and the next `connect` tries to make a
connection. -/
def NotKept (process : ClientProcess H Handler) (call : Circumstances Handler) : Prop :=
  (process.connect call).outcome ≠ .returned →
    (process.connect call).process.connected = false ∧
      ∀ later, ((process.connect call).process.connect later).attempted = true

variable {process : ClientProcess H Handler} {call : Circumstances Handler}

/-- With an open session `connect` does nothing. -/
theorem connect_of_connected (connected : process.connected = true) :
    process.connect call = { process := process, outcome := .returned, attempted := false } :=
  if_pos connected

/-- Without one it tries to make a connection. -/
theorem connect_attempted (disconnected : process.connected = false) :
    (process.connect call).attempted = true := by
  unfold connect
  rw [if_neg (by rw [disconnected]; exact Bool.false_ne_true)]
  cases connectTcp call.resolution with
  | error outcome => rfl
  | ok fd => rfl

/-- `connect` when no address can be connected. -/
theorem connect_of_refused (disconnected : process.connected = false) (refused : call.socket = none) :
    (process.connect call).process = process := by
  unfold connect
  rw [if_neg (by rw [disconnected]; exact Bool.false_ne_true)]
  cases answer : connectTcp call.resolution with
  | error outcome => rfl
  | ok fd =>
      have found : call.socket = some fd := connectTcp_ok_iff.mp answer
      rw [refused] at found
      cases found

/-- `connect` when one can. -/
theorem connect_of_socket (disconnected : process.connected = false) {fd : ℕ} (found : call.socket = some fd) :
    process.connect call =
      { process := {
          session := some ((Session.constructed fd).start process.loop call.handler call.answers).1
          loop := ((Session.constructed fd : Session H).start process.loop call.handler call.answers).2.1 }
        outcome := ((Session.constructed fd : Session H).start process.loop call.handler call.answers).2.2
        attempted := true } := by
  unfold connect
  rw [if_neg (by rw [disconnected]; exact Bool.false_ne_true), connectTcp_ok_iff.mpr found]

/-- **A client keeps no session that is not started exactly if none of the calls of `start` fails.** -/
theorem notKept_iff (disconnected : process.connected = false) :
    process.NotKept call ↔ ∀ fd : ℕ, call.socket = some fd → Starts process.loop fd call.answers := by
  cases found : call.socket with
  | none =>
      refine iff_of_true (fun _ => ?_) (fun fd impossible => nomatch impossible)
      rw [connect_of_refused disconnected found]
      exact ⟨disconnected, fun later => connect_attempted disconnected⟩
  | some fd =>
      have connect := connect_of_socket disconnected found
      constructor
      · rintro notKept _ ⟨⟩
        by_contra fails
        obtain ⟨same, threw⟩ := Session.start_of_fails (H := H) call.handler fails
        rw [NotKept, connect] at notKept
        have closed := (notKept threw).1
        rw [connected, same] at closed
        cases closed
      · intro starts threw
        rw [connect] at threw
        exact absurd ((Session.start_returned_iff call.handler).mpr (starts fd rfl)) threw

/-- **After a `start` that threw, `connect` does nothing from then on**, whatever it would meet. -/
theorem connect_again (disconnected : process.connected = false) {fd : ℕ} (found : call.socket = some fd)
    (fails : ¬ Starts process.loop fd call.answers) (later : List (Circumstances Handler)) :
    later.foldl (fun process call => (process.connect call).process) (process.connect call).process =
      (process.connect call).process := by
  have connected : (process.connect call).process.connected = true := by
    rw [connect_of_socket disconnected found, ClientProcess.connected,
      (Session.start_of_fails call.handler fails).1]
    rfl
  generalize (process.connect call).process = left at connected
  induction later with
  | nil => rfl
  | cons next rest ih =>
      rw [List.foldl_cons, connect_of_connected connected]
      exact ih

end ClientProcess

/-! ### `TcpServer::accept_loop` -/

/-- The members of `TcpServer` that `accept_loop` uses, the sessions that it has made, and its loop. -/
structure Acceptor (H Handler : Type) where
  /-- `sessions_`: the keys, with the places of their sessions. -/
  sessions : List (UInt64 × ℕ) := []
  made : List (Session H) := []
  known : ∀ entry ∈ sessions, entry.2 < made.length := by simp
  /-- `Session::next_id_`. -/
  nextId : UInt64 := 1
  /-- `session_handler_` is set. -/
  sessionHandler : Bool := false
  loop : HandlerTable Handler := {}

/-- How a turn of `accept_loop` ends. -/
inductive Turn
  /-- The loop goes on; the session at this place has been given to `session_handler_`. -/
  | again (handed : Option ℕ)
  | returned
  | threw (outcome : Outcome)
deriving DecidableEq, Repr

namespace Acceptor

theorem known_assign {sessions : List (UInt64 × ℕ)} {count : ℕ} (known : ∀ entry ∈ sessions, entry.2 < count)
    (id : UInt64) : ∀ entry ∈ ServerWorld.assign sessions id count, entry.2 < count + 1 := by
  intro entry member
  rcases List.mem_append.mp member with old | new
  · exact Nat.lt_succ_of_lt (known entry (List.mem_of_mem_filter old))
  · rw [List.mem_singleton.mp new]
    exact Nat.lt_succ_self count

/-- A session is made and entered into `sessions_`; then it is what `start` leaves of it. -/
def publish (server : Acceptor H Handler) (session : Session H) (loop : HandlerTable Handler) :
    Acceptor H Handler where
  sessions := ServerWorld.assign server.sessions server.nextId server.made.length
  made := server.made ++ [session]
  known := by
    rw [List.length_append]
    exact known_assign server.known server.nextId
  nextId := server.nextId + 1
  sessionHandler := server.sessionHandler
  loop := loop

/-- One turn of `accept_loop`, when `accept4` answers a descriptor or an `errno`. -/
def accept (server : Acceptor H Handler) (answer : Except ℕ ℕ) (handler : Handler) (answers : Answers) :
    Acceptor H Handler × Turn :=
  match answer with
  | .error code =>
      if code = eagain then (server, .returned)
      else if code = eintr then (server, .again none)
      else (server, .threw (.systemError code))
  | .ok fd =>
      match (Session.constructed fd).start server.loop handler answers with
      | (session, loop, .returned) =>
          (server.publish session loop,
            .again (if server.sessionHandler then some server.made.length else none))
      | (session, loop, outcome) => (server.publish session loop, .threw outcome)

/-- If a turn throws, `sessions_` is as it was before. -/
def NotKept (server : Acceptor H Handler) (answer : Except ℕ ℕ) (handler : Handler)
    (answers : Answers) : Prop :=
  ∀ outcome, (server.accept answer handler answers).2 = .threw outcome →
    (server.accept answer handler answers).1.sessions = server.sessions

/-- The new session is in `sessions_`, where it was not before. -/
theorem sessions_publish (server : Acceptor H Handler) (session : Session H) (loop : HandlerTable Handler) :
    (server.publish session loop).sessions ≠ server.sessions := by
  intro same
  have entered : (server.nextId, server.made.length) ∈ (server.publish session loop).sessions :=
    List.mem_append_right _ (List.mem_singleton_self _)
  rw [same] at entered
  exact Nat.lt_irrefl _ (server.known _ entered)

variable {server : Acceptor H Handler} {handler : Handler} {answers : Answers}

/-- A turn with a new connection whose session starts. -/
theorem accept_of_starts {fd : ℕ} (starts : Starts server.loop fd answers) :
    ∃ loop, server.accept (.ok fd) handler answers =
      (server.publish (.started fd) loop,
        .again (if server.sessionHandler then some server.made.length else none)) := by
  refine ⟨((Session.constructed fd : Session H).start server.loop handler answers).2.1, ?_⟩
  unfold accept
  simp only [Session.start_of_starts handler starts]

/-- A turn with one whose session does not. -/
theorem accept_of_fails {fd : ℕ} (fails : ¬ Starts server.loop fd answers) :
    ∃ loop outcome, server.accept (.ok fd) handler answers =
      (server.publish (.constructed fd) loop, .threw outcome) := by
  obtain ⟨same, threw⟩ := Session.start_of_fails (H := H) handler fails
  unfold accept
  simp only
  generalize (Session.constructed fd : Session H).start server.loop handler answers = answer at same threw
  obtain ⟨session, loop, outcome⟩ := answer
  simp only at same threw
  subst same
  cases outcome with
  | returned => exact absurd rfl threw
  | systemError code => exact ⟨loop, _, rfl⟩
  | runtimeError => exact ⟨loop, _, rfl⟩

/-- **A server keeps no session that is not started exactly if none of the calls of `start` fails.** -/
theorem notKept_iff (server : Acceptor H Handler) (answer : Except ℕ ℕ) (handler : Handler)
    (answers : Answers) :
    server.NotKept answer handler answers ↔ ∀ fd : ℕ, answer = .ok fd → Starts server.loop fd answers := by
  cases answer with
  | error code =>
      refine iff_of_true (fun outcome _ => ?_) (fun fd impossible => nomatch impossible)
      unfold accept
      simp only
      split_ifs <;> rfl
  | ok fd =>
      constructor
      · rintro notKept _ ⟨⟩
        by_contra fails
        obtain ⟨loop, outcome, accepted⟩ := accept_of_fails fails
        have same := notKept outcome (congrArg Prod.snd accepted)
        rw [accepted] at same
        exact sessions_publish _ _ _ same
      · intro starts outcome threw
        obtain ⟨loop, accepted⟩ := accept_of_starts (starts fd rfl)
        rw [accepted] at threw
        cases threw

end Acceptor

/-! ### The two owners -/

/-- **A session that does not start is not kept, by a client without an open session and by a server, exactly if
none of the calls of `start` fails.** -/
theorem notKept_iff_starts {client : ClientProcess H Handler} (disconnected : client.connected = false)
    (call : Circumstances Handler) (server : Acceptor H Handler) (answer : Except ℕ ℕ) (handler : Handler)
    (answers : Answers) :
    (client.NotKept call ↔ ∀ fd : ℕ, call.socket = some fd → Starts client.loop fd call.answers) ∧
      (server.NotKept answer handler answers ↔ ∀ fd : ℕ, answer = .ok fd → Starts server.loop fd answers) :=
  ⟨ClientProcess.notKept_iff disconnected, Acceptor.notKept_iff server answer handler answers⟩

/-- The only address of the host refuses the connection. -/
def refusedEverywhere : Circumstances Unit where
  resolution := some [.connectFailed 5 111]
  answers := fun _ => none
  handler := ()

/-- `connect` throws `ECONNREFUSED`, and `accept4` fails with `EMFILE`. -/
theorem refusedEverywhere_notKept :
    ({} : ClientProcess ℕ Unit).NotKept refusedEverywhere ∧
      ({} : Acceptor ℕ Unit).NotKept (.error 24) () fun _ => none := by
  have both := notKept_iff_starts (show ({} : ClientProcess ℕ Unit).connected = false from rfl)
    refusedEverywhere ({} : Acceptor ℕ Unit) (.error 24) () fun _ => none
  exact ⟨both.1.mpr fun fd found => (nomatch found), both.2.mpr fun fd answered => (nomatch answered)⟩

/-- `epoll_ctl(ADD)` fails with `ENOSPC`: the client counts as connected, and the server keeps the session. -/
theorem kept_without_watches :
    ¬ ({} : ClientProcess ℕ Unit).NotKept
        { resolution := some [.connected 5], handler := ()
          answers := fun call => if call = .epollAdd then some 28 else none } ∧
      ¬ ({} : Acceptor ℕ Unit).NotKept (.ok 7) () (fun call => if call = .epollAdd then some 28 else none) := by
  constructor
  · intro notKept
    have closed := (notKept (by decide)).1
    revert closed
    decide
  · intro notKept
    have same := notKept (.systemError 28) (by decide)
    revert same
    decide

/-! ### A started session in the world of sessions -/

/-- The server's part of a world, as `accept_loop` sees it. -/
structure Acceptor.Abstracts (server : Acceptor H Handler) (world : ServerWorld H) : Prop where
  sessions : world.server.sessions = server.sessions
  made : world.pool.sessions.map Endpoint.session = server.made
  nextId : world.nextId = server.nextId

/-- **A turn of `accept_loop` whose session starts does what `ServerWorld.accept` does.** -/
theorem Acceptor.accept_abstracts {server : Acceptor H Handler} {world : ServerWorld H}
    (abstracts : server.Abstracts world) (handler : Handler) {answers : Answers} {fd : ℕ}
    (starts : Starts server.loop fd answers) :
    (server.accept (.ok fd) handler answers).1.Abstracts (world.accept (.connection fd)) := by
  obtain ⟨loop, accepted⟩ := accept_of_starts starts
  have count : world.pool.sessions.length = server.made.length := by
    rw [← abstracts.made, List.length_map]
  rw [accepted]
  constructor
  · show ServerWorld.assign world.server.sessions world.nextId world.pool.sessions.length = _
    rw [abstracts.sessions, abstracts.nextId, count]
    rfl
  · show (world.pool.sessions ++ [Endpoint.started fd]).map Endpoint.session = server.made ++ [.started fd]
    rw [List.map_append, abstracts.made]
    rfl
  · show world.nextId + 1 = server.nextId + 1
    rw [abstracts.nextId]

/-- **So does `connect`**: a client whose session starts holds the session that the pool adds. -/
theorem ClientProcess.connect_established {process : ClientProcess H Handler} {call : Circumstances Handler}
    (disconnected : process.connected = false) {fd : ℕ} (found : call.socket = some fd)
    (starts : Starts process.loop fd call.answers) (pool : SessionPool H) :
    (process.connect call).process.session = (pool.add fd).sessions.getLast?.map Endpoint.session := by
  rw [connect_of_socket disconnected found, Session.start_of_starts call.handler starts]
  simp [SessionPool.add, Endpoint.started]

end Insist.MiniRpc
