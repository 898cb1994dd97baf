/-
**`TcpServer::start` when a system call fails** (`src/server.cpp`, `set_non_blocking` of `src/event_loop.cpp`).

A `ServerProcess` is a server with the tables of its loop, the open sockets and `errno`. The environment says
for each system call whether it fails, and with which `errno`; `epoll_ctl(DEL)` in the cleanup fails by itself
when the listening socket is not registered, and then overwrites `errno`.

* `start_socket` — a failing `socket` is reported, and nothing has changed;
* `start_cleaned` — a failing `setsockopt`, `bind` or `listen` is cleaned up, but reported as `ENOENT`;
* `start_leaves` — a failing `fcntl` or `epoll_ctl(ADD)` is reported, but not cleaned up;
* `allOrNothing_iff` — so `start` is all-or-nothing with the true cause exactly in the first case, and in the
  second one where the cause is `ENOENT`;
* `start_abstracts` — in every case, `start` is one of the three cases of `ServerWorld.start`.
-/
import Insist.MiniRpc.HandlerTable
import Insist.MiniRpc.ServerWorld
import Mathlib.Data.Finset.Basic

namespace Insist.MiniRpc

variable {Handler : Type}

/-- The system calls of `start`, `bind_and_listen`, `set_non_blocking` and `EventLoop::add`. -/
inductive SystemCall
  | socket
  | setsockopt
  | bind
  | listen
  /-- `fcntl(F_GETFL)`. -/
  | getFlags
  /-- `fcntl(F_SETFL)`. -/
  | setFlags
  /-- `epoll_ctl(ADD)`. -/
  | epollAdd
deriving DecidableEq, Repr

/-- The calls are made in this order. -/
def SystemCall.index : SystemCall → ℕ
  | .socket => 0
  | .setsockopt => 1
  | .bind => 2
  | .listen => 3
  | .getFlags => 4
  | .setFlags => 5
  | .epollAdd => 6

/-- The `errno` with which each call fails, if it does. -/
abbrev Answers := SystemCall → Option ℕ

/-- The call is the first one that fails. -/
structure Answers.Fails (answers : Answers) (call : SystemCall) (cause : ℕ) : Prop where
  here : answers call = some cause
  earlier : ∀ other : SystemCall, other.index < call.index → answers other = none

/-- The members of `TcpServer` that `start` uses, its loop and the process. -/
structure ServerProcess (Handler : Type) where
  /-- Whether `inet_pton` takes `host_`. -/
  hostIsIpv4 : Bool := true
  /-- `listen_fd_`. -/
  listenFd : ℤ := -1
  /-- `started_`. -/
  started : Bool := false
  loop : HandlerTable Handler := {}
  /-- The open sockets. -/
  sockets : Finset ℤ := ∅
  errno : ℕ := 0

namespace ServerProcess

/-- `throw_system_error`. -/
def throwSystemError (process : ServerProcess Handler) : ServerProcess Handler × Outcome :=
  (process, .systemError process.errno)

/-- `close_listener`. -/
def closeListener (process : ServerProcess Handler) : ServerProcess Handler :=
  if process.listenFd ≠ -1 then
    let (loop, failed) := process.loop.remove process.listenFd
    { process with
      loop := loop
      errno := failed.getD process.errno
      sockets := process.sockets.erase process.listenFd
      listenFd := -1 }
  else process

/-- `socket` has returned `fd`. -/
def opened (process : ServerProcess Handler) (fd : ℤ) : ServerProcess Handler :=
  { process with listenFd := fd, sockets := insert fd process.sockets }

/-- `bind_and_listen`, when `socket` returns `fd`. -/
def bindAndListen (process : ServerProcess Handler) (fd : ℤ) (answers : Answers) :
    ServerProcess Handler × Outcome :=
  match answers .socket with
  | some code => throwSystemError { process with listenFd := -1, errno := code }
  | none =>
      let process := process.opened fd
      match answers .setsockopt with
      | some code => throwSystemError (closeListener { process with errno := code })
      | none =>
          if ¬ process.hostIsIpv4 then (closeListener process, .runtimeError)
          else
            match answers .bind with
            | some code => throwSystemError (closeListener { process with errno := code })
            | none =>
                match answers .listen with
                | some code => throwSystemError (closeListener { process with errno := code })
                | none => (process, .returned)

/-- `set_non_blocking`. -/
def setNonBlocking (process : ServerProcess Handler) (answers : Answers) : ServerProcess Handler × Outcome :=
  match answers .getFlags with
  | some code => throwSystemError { process with errno := code }
  | none =>
      match answers .setFlags with
      | some code => throwSystemError { process with errno := code }
      | none => (process, .returned)

/-- `loop_.add` of the listening socket. -/
def addListener (process : ServerProcess Handler) (handler : Handler) (answers : Answers) :
    ServerProcess Handler × Outcome :=
  match process.loop.add process.listenFd epollin handler (answers .epollAdd) with
  | (loop, .systemError code) => ({ process with loop := loop, errno := code }, .systemError code)
  | (loop, outcome) => ({ process with loop := loop }, outcome)

/-- `start`, when `socket` returns `fd`. -/
def start (process : ServerProcess Handler) (handler : Handler) (fd : ℤ) (answers : Answers) :
    ServerProcess Handler × Outcome :=
  if process.started then (process, .returned)
  else
    match process.bindAndListen fd answers with
    | (process, .returned) =>
        match process.setNonBlocking answers with
        | (process, .returned) =>
            match process.addListener handler answers with
            | (process, .returned) => ({ process with started := true }, .returned)
            | thrown => thrown
        | thrown => thrown
    | thrown => thrown

/-- A server that is not started and has no listening socket. -/
structure Stopped (process : ServerProcess Handler) : Prop where
  listenFd : process.listenFd = -1
  started : process.started = false

/-- A file descriptor that `socket` can return: it is neither open nor known to the loop. -/
structure Unused (process : ServerProcess Handler) (fd : ℤ) : Prop where
  valid : fd ≠ -1
  socket : fd ∉ process.sockets
  handler : process.loop.handlers fd = none
  interest : process.loop.interest fd = none

/-- `start` has thrown the cause, the socket is closed, and the server and its loop are as before. -/
structure AllOrNothing (process : ServerProcess Handler) (fd : ℤ) (cause : ℕ)
    (ended : ServerProcess Handler × Outcome) : Prop where
  cause : ended.2 = .systemError cause
  closed : fd ∉ ended.1.sockets
  listenFd : ended.1.listenFd = -1
  started : ended.1.started = false
  handlers : ended.1.loop.handlers = process.loop.handlers
  /-- A later `start` finds everything but `errno` as it was. -/
  restored : { ended.1 with errno := process.errno } = process

/-- The call is made: `host_` is an address, or the call comes before the test of it. -/
def Reached (process : ServerProcess Handler) (call : SystemCall) : Prop :=
  process.hostIsIpv4 = true ∨ call.index < SystemCall.bind.index

/-! ### The failures -/

section Failures

variable {process : ServerProcess Handler} {fd : ℤ} {answers : Answers} {cause : ℕ} {handler : Handler}

/-- A failure of `bind_and_listen` ends `start`. -/
theorem start_of_bindAndListen (idle : process.started = false) {failed : ServerProcess Handler}
    {code : ℕ} (threw : process.bindAndListen fd answers = (failed, .systemError code)) :
    process.start handler fd answers = (failed, .systemError code) := by
  unfold start
  rw [if_neg (by rw [idle]; exact Bool.false_ne_true), threw]

/-- The cleanup undoes `socket`, and leaves the `errno` of its `epoll_ctl(DEL)`. -/
theorem closeListener_opened (stopped : process.Stopped) (unused : process.Unused fd) (code : ℕ) :
    closeListener { process.opened fd with errno := code } = { process with errno := enoent } := by
  have removed : process.loop.remove fd = (process.loop, some enoent) :=
    HandlerTable.remove_unknown unused.handler unused.interest
  unfold closeListener opened
  simp only [ne_eq, unused.valid, not_false_eq_true, if_true, removed, Option.getD_some,
    Finset.erase_insert unused.socket]
  rw [← stopped.listenFd]

/-- **A failing `socket` is reported**, and only `errno` has changed. -/
theorem start_socket (stopped : process.Stopped) (fails : answers.Fails .socket cause) :
    process.start handler fd answers = ({ process with errno := cause }, .systemError cause) := by
  refine start_of_bindAndListen stopped.started ?_
  unfold bindAndListen throwSystemError
  simp only [fails.here]
  rw [← stopped.listenFd]

/-- **A failing `setsockopt`, `bind` or `listen` is cleaned up**, and reported as `ENOENT`. -/
theorem start_cleaned (stopped : process.Stopped) (unused : process.Unused fd) {call : SystemCall}
    (kind : call = .setsockopt ∨ call = .bind ∨ call = .listen) (reached : process.Reached call)
    (fails : answers.Fails call cause) :
    process.start handler fd answers = ({ process with errno := enoent }, .systemError enoent) := by
  refine start_of_bindAndListen stopped.started ?_
  have cleaned : throwSystemError (closeListener { process.opened fd with errno := cause }) =
      ({ process with errno := enoent }, .systemError enoent) := by
    rw [closeListener_opened stopped unused cause, throwSystemError]
  unfold bindAndListen
  rcases kind with rfl | rfl | rfl
  · simp only [fails.earlier .socket (by decide), fails.here]
    exact cleaned
  · have host : (process.opened fd).hostIsIpv4 = true := reached.resolve_right (by decide)
    simp only [fails.earlier .socket (by decide), fails.earlier .setsockopt (by decide), fails.here]
    rw [if_neg (not_not.mpr host)]
    exact cleaned
  · have host : (process.opened fd).hostIsIpv4 = true := reached.resolve_right (by decide)
    simp only [fails.earlier .socket (by decide), fails.earlier .setsockopt (by decide),
      fails.earlier .bind (by decide), fails.here]
    rw [if_neg (not_not.mpr host)]
    exact cleaned

/-- `bind_and_listen` without a failure. -/
theorem bindAndListen_opened (host : process.hostIsIpv4 = true)
    (fine : ∀ call : SystemCall, call.index ≤ SystemCall.listen.index → answers call = none) :
    process.bindAndListen fd answers = (process.opened fd, .returned) := by
  unfold bindAndListen
  simp only [fine .socket (by decide), fine .setsockopt (by decide), fine .bind (by decide),
    fine .listen (by decide)]
  exact if_neg (not_not.mpr host)

/-- **A failing `fcntl` or `epoll_ctl(ADD)` is reported, and leaves the listening socket open.** -/
theorem start_leaves (stopped : process.Stopped) (unused : process.Unused fd) {call : SystemCall}
    (late : SystemCall.listen.index < call.index) (reached : process.Reached call)
    (fails : answers.Fails call cause) :
    process.start handler fd answers =
      ({ process.opened fd with errno := cause }, .systemError cause) := by
  have host : process.hostIsIpv4 = true := reached.resolve_right fun early => by
    have order : SystemCall.bind.index < SystemCall.listen.index := by decide
    omega
  have bound : process.bindAndListen fd answers = (process.opened fd, .returned) :=
    bindAndListen_opened host fun other below => fails.earlier other (by omega)
  unfold start
  rw [if_neg (by rw [stopped.started]; exact Bool.false_ne_true), bound]
  cases call with
  | socket | setsockopt | bind | listen => exact absurd late (by decide)
  | getFlags =>
      have threw : setNonBlocking (process.opened fd) answers =
          ({ process.opened fd with errno := cause }, .systemError cause) := by
        unfold setNonBlocking throwSystemError
        simp only [fails.here]
      simp only [threw]
  | setFlags =>
      have threw : setNonBlocking (process.opened fd) answers =
          ({ process.opened fd with errno := cause }, .systemError cause) := by
        unfold setNonBlocking throwSystemError
        simp only [fails.earlier .getFlags (by decide), fails.here]
      simp only [threw]
  | epollAdd =>
      have set : setNonBlocking (process.opened fd) answers = (process.opened fd, .returned) := by
        unfold setNonBlocking
        simp only [fails.earlier .getFlags (by decide), fails.earlier .setFlags (by decide)]
      have refused : (process.opened fd).loop.add fd epollin handler (some cause) =
          (process.loop, .systemError cause) :=
        HandlerTable.add_fresh epollin handler (some cause) unused.handler unused.interest
      have threw : addListener (process.opened fd) handler answers =
          ({ process.opened fd with errno := cause }, .systemError cause) := by
        unfold addListener
        rw [fails.here, show (process.opened fd).listenFd = fd from rfl, refused]
        rfl
      simp only [set, threw]

end Failures

/-! ### All or nothing -/

/-- A `start` that has changed only `errno` is all-or-nothing for the code that it throws, and for no other. -/
theorem allOrNothing_of_restored {process : ServerProcess Handler} {fd : ℤ} (stopped : process.Stopped)
    (unused : process.Unused fd) {cause code : ℕ} :
    process.AllOrNothing fd cause ({ process with errno := code }, .systemError code) ↔ cause = code := by
  constructor
  · intro all
    injection all.cause with same
    exact same.symm
  · rintro rfl
    exact {
      cause := rfl
      closed := unused.socket
      listenFd := stopped.listenFd
      started := stopped.started
      handlers := rfl
      restored := rfl }

/-- **`start` is all-or-nothing and reports the true cause exactly if the failing call is `socket`, or a call of
`bind_and_listen` after it that fails with `ENOENT`.** -/
theorem allOrNothing_iff {process : ServerProcess Handler} {fd : ℤ} {answers : Answers} {call : SystemCall}
    {cause : ℕ} (handler : Handler) (stopped : process.Stopped) (unused : process.Unused fd)
    (reached : process.Reached call) (fails : answers.Fails call cause) :
    process.AllOrNothing fd cause (process.start handler fd answers) ↔
      call = .socket ∨ (call = .setsockopt ∨ call = .bind ∨ call = .listen) ∧ cause = enoent := by
  by_cases early : call = .socket
  · subst early
    rw [start_socket stopped fails, allOrNothing_of_restored stopped unused]
    exact iff_of_true rfl (Or.inl rfl)
  by_cases kind : call = .setsockopt ∨ call = .bind ∨ call = .listen
  · rw [start_cleaned stopped unused kind reached fails, allOrNothing_of_restored stopped unused]
    exact ⟨fun same => Or.inr ⟨kind, same⟩, fun one => (one.resolve_left early).2⟩
  · have late : SystemCall.listen.index < call.index := by
      cases call with
      | socket => exact absurd rfl early
      | setsockopt | bind | listen => simp at kind
      | getFlags | setFlags | epollAdd => decide
    rw [start_leaves stopped unused late reached fails]
    refine iff_of_false (fun all => unused.valid ?_) fun one => ?_
    · exact all.listenFd
    · exact kind (one.resolve_left early).1

/-- `socket` fails with `EMFILE`. -/
theorem tooManyFiles_allOrNothing :
    AllOrNothing ({} : ServerProcess Unit) 5 24
      (start {} () 5 fun call => if call = .socket then some 24 else none) := by
  refine (allOrNothing_iff () ⟨rfl, rfl⟩ ⟨by decide, by decide, rfl, rfl⟩ (Or.inl rfl) ⟨rfl, ?_⟩).mpr
    (Or.inl rfl)
  intro other earlier
  exact absurd earlier (Nat.not_lt_zero _)

/-- `bind` fails with `EADDRINUSE`: the exception says `ENOENT`. -/
theorem addressInUse_misreported :
    ¬ AllOrNothing ({} : ServerProcess Unit) 5 98
      (start {} () 5 fun call => if call = .bind then some 98 else none) := by
  intro all
  have cause := all.cause
  revert cause
  decide

/-! ### `start` in the world of sessions -/

/-- What the server's functions test, with `sessions_`. -/
def toServer (process : ServerProcess Handler) (sessions : List (UInt64 × ℕ)) : TcpServer where
  listening := process.listenFd ≠ -1
  started := process.started
  sessions := sessions

theorem closeListener_ends (process : ServerProcess Handler) :
    process.closeListener.listenFd = -1 ∧ process.closeListener.started = process.started := by
  unfold closeListener
  by_cases listening : process.listenFd ≠ -1
  · rw [if_pos listening]
    exact ⟨rfl, rfl⟩
  · rw [if_neg listening]
    exact ⟨not_not.mp listening, rfl⟩

/-- `bind_and_listen` returns with the new socket, or throws with none. -/
theorem bindAndListen_ends (process : ServerProcess Handler) (fd : ℤ) (answers : Answers) :
    (process.bindAndListen fd answers).1.started = process.started ∧
      ((process.bindAndListen fd answers).2 = .returned ∧
          (process.bindAndListen fd answers).1.listenFd = fd ∨
        (process.bindAndListen fd answers).2 ≠ .returned ∧
          (process.bindAndListen fd answers).1.listenFd = -1) := by
  have threw (opened : ServerProcess Handler) (same : opened.started = process.started) {outcome : Outcome}
      (failed : outcome ≠ .returned) :
      opened.closeListener.started = process.started ∧
        (outcome = .returned ∧ opened.closeListener.listenFd = fd ∨
          outcome ≠ .returned ∧ opened.closeListener.listenFd = -1) := by
    obtain ⟨closed, started⟩ := closeListener_ends opened
    exact ⟨started.trans same, Or.inr ⟨failed, closed⟩⟩
  unfold bindAndListen
  cases answers .socket with
  | some code => exact ⟨rfl, Or.inr ⟨Outcome.noConfusion, rfl⟩⟩
  | none =>
      cases answers .setsockopt with
      | some code => exact threw { process.opened fd with errno := code } rfl Outcome.noConfusion
      | none =>
          simp only
          by_cases host : ¬ (process.opened fd).hostIsIpv4 = true
          · rw [if_pos host]
            exact threw (process.opened fd) rfl Outcome.noConfusion
          · rw [if_neg host]
            cases answers .bind with
            | some code => exact threw { process.opened fd with errno := code } rfl Outcome.noConfusion
            | none =>
                cases answers .listen with
                | some code => exact threw { process.opened fd with errno := code } rfl Outcome.noConfusion
                | none => exact ⟨rfl, Or.inl ⟨rfl, rfl⟩⟩

theorem setNonBlocking_ends (process : ServerProcess Handler) (answers : Answers) :
    (process.setNonBlocking answers).1.listenFd = process.listenFd ∧
      (process.setNonBlocking answers).1.started = process.started := by
  unfold setNonBlocking
  cases answers .getFlags with
  | some code => exact ⟨rfl, rfl⟩
  | none =>
      cases answers .setFlags with
      | some code => exact ⟨rfl, rfl⟩
      | none => exact ⟨rfl, rfl⟩

theorem addListener_ends (process : ServerProcess Handler) (handler : Handler) (answers : Answers) :
    (process.addListener handler answers).1.listenFd = process.listenFd ∧
      (process.addListener handler answers).1.started = process.started := by
  unfold addListener
  obtain ⟨loop, outcome⟩ := process.loop.add process.listenFd epollin handler (answers .epollAdd)
  cases outcome with
  | returned | systemError code | runtimeError => exact ⟨rfl, rfl⟩

/-- The three ends of `start`, for a server that is not started. -/
theorem start_ends {process : ServerProcess Handler} (fd : ℤ) (handler : Handler) (answers : Answers)
    (idle : process.started = false) :
    ((process.start handler fd answers).2 = .returned ∧
        (process.start handler fd answers).1.listenFd = fd ∧
        (process.start handler fd answers).1.started = true) ∨
      (process.start handler fd answers).2 ≠ .returned ∧
        (process.start handler fd answers).1.started = false ∧
        ((process.start handler fd answers).1.listenFd = -1 ∨
          (process.start handler fd answers).1.listenFd = fd) := by
  obtain ⟨boundStarted, boundEnds⟩ := bindAndListen_ends process fd answers
  unfold start
  rw [if_neg (by rw [idle]; exact Bool.false_ne_true)]
  generalize process.bindAndListen fd answers = answer at boundStarted boundEnds ⊢
  obtain ⟨bound, outcome⟩ := answer
  rcases boundEnds with ⟨rfl, listening⟩ | ⟨threw, closed⟩
  · obtain ⟨setFd, setStarted⟩ := setNonBlocking_ends bound answers
    simp only
    generalize bound.setNonBlocking answers = answer at setFd setStarted ⊢
    obtain ⟨set, outcome⟩ := answer
    cases outcome with
    | systemError code | runtimeError =>
        exact Or.inr ⟨Outcome.noConfusion, setStarted.trans (boundStarted.trans idle),
          Or.inr (setFd.trans listening)⟩
    | returned =>
        obtain ⟨addedFd, addedStarted⟩ := addListener_ends set handler answers
        simp only
        generalize set.addListener handler answers = answer at addedFd addedStarted ⊢
        obtain ⟨added, outcome⟩ := answer
        cases outcome with
        | systemError code | runtimeError =>
            exact Or.inr ⟨Outcome.noConfusion, addedStarted.trans (setStarted.trans (boundStarted.trans idle)),
              Or.inr (addedFd.trans (setFd.trans listening))⟩
        | returned => exact Or.inl ⟨rfl, addedFd.trans (setFd.trans listening), rfl⟩
  · cases outcome with
    | returned => exact absurd rfl threw
    | systemError code | runtimeError =>
        exact Or.inr ⟨Outcome.noConfusion, boundStarted.trans idle, Or.inl closed⟩

/-- **Whatever the system calls answer, `start` does to the server what one of the three cases of
`ServerWorld.start` does.** -/
theorem start_abstracts {H : Type} {world : ServerWorld H} {process : ServerProcess Handler} {fd : ℤ}
    {sessions : List (UInt64 × ℕ)} (handler : Handler) (answers : Answers) (valid : fd ≠ -1)
    (same : world.server = process.toServer sessions) :
    ∃ result, (world.start result).server = (process.start handler fd answers).1.toServer sessions ∧
      (result = .ok ↔ (process.start handler fd answers).2 = .returned) := by
  unfold ServerWorld.start
  rw [same]
  by_cases started : process.started = true
  · refine ⟨.ok, ?_, ?_⟩
    · rw [if_pos (show (process.toServer sessions).started = true from started), start, if_pos started]
      exact same
    · rw [start, if_pos started]
      exact iff_of_true rfl rfl
  · have unstarted : ¬ (process.toServer sessions).started = true := started
    have idle := eq_false_of_ne_true started
    rcases start_ends fd handler answers idle with
      ⟨returned, listening, ended⟩ | ⟨threw, ended, closed | listening⟩
    · refine ⟨.ok, ?_, iff_of_true rfl returned⟩
      rw [if_neg unstarted]
      simp [toServer, listening, ended, valid]
    · refine ⟨.bindFailed, ?_, iff_of_false StartResult.noConfusion threw⟩
      rw [if_neg unstarted]
      simp [toServer, closed, ended, idle]
    · refine ⟨.setupFailed, ?_, iff_of_false StartResult.noConfusion threw⟩
      rw [if_neg unstarted]
      simp [toServer, listening, ended, idle, valid]

end ServerProcess

end Insist.MiniRpc
