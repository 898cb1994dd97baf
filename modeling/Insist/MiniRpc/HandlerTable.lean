/-
**`EventLoop::add`, `modify` and `remove`** (`src/event_loop.cpp`): the handler table and the kernel's interest
set.

`epoll_ctl` is modelled with the interest set that it changes. ADD fails with `EEXIST` for a file descriptor
that is in the set, MOD with `ENOENT` for one that is not; both can fail for other reasons, which the
environment chooses; DEL takes the file descriptor out. `add` writes its handler into the table before it asks
the kernel, and erases the entry when the kernel refuses:

* `add_fresh` — for a file descriptor that is not registered, the refusal restores the table;
* `add_registered` — for one that is, it loses the entry, and the kernel keeps its own;
* `sound_iff_fresh` — so the two agree after every call of a sequence, and no `add` that throws changes the
  table, exactly if every `add` is of a file descriptor that is not registered at that time.
-/
import Insist.Lib.Machine
import Mathlib.Data.Int.Basic

namespace Insist.MiniRpc

open Lib

/-- `errno` values that the code looks at, or that the kernel is known to leave. -/
def enoent : ℕ := 2
def ebadf : ℕ := 9
def eexist : ℕ := 17

/-- `EPOLLIN`. -/
def epollin : UInt32 := 0x001

/-- `EPOLLRDHUP`. -/
def epollrdhup : UInt32 := 0x2000

/-- How a call ends: it returns, or it throws a `std::system_error` with a code of the generic category, or a
`std::runtime_error`. -/
inductive Outcome
  | returned
  | systemError (code : ℕ)
  | runtimeError
deriving DecidableEq, Repr

/-! ### `epoll_ctl` -/

/-- The file descriptors of an epoll instance, with their events. -/
abbrev InterestSet := ℤ → Option UInt32

/-- `epoll_ctl(ADD)`: the new set, or the `errno`. -/
def ctlAdd (interest : InterestSet) (fd : ℤ) (events : UInt32) (refused : Option ℕ) : Except ℕ InterestSet :=
  if (interest fd).isSome then .error eexist
  else
    match refused with
    | some code => .error code
    | none => .ok (Function.update interest fd (some events))

/-- `epoll_ctl(MOD)`. -/
def ctlModify (interest : InterestSet) (fd : ℤ) (events : UInt32) (refused : Option ℕ) :
    Except ℕ InterestSet :=
  if (interest fd).isNone then .error enoent
  else
    match refused with
    | some code => .error code
    | none => .ok (Function.update interest fd (some events))

/-- `epoll_ctl(DEL)`. -/
def ctlDelete (interest : InterestSet) (fd : ℤ) : Except ℕ InterestSet :=
  if (interest fd).isNone then .error enoent else .ok (Function.update interest fd none)

theorem ctlAdd_fresh {interest : InterestSet} {fd : ℤ} (events : UInt32) (refused : Option ℕ)
    (fresh : interest fd = none) :
    ctlAdd interest fd events refused =
      match refused with
      | some code => .error code
      | none => .ok (Function.update interest fd (some events)) := by
  unfold ctlAdd
  rw [fresh]
  rfl

theorem ctlAdd_registered {interest : InterestSet} {fd : ℤ} (events : UInt32) (refused : Option ℕ)
    (registered : interest fd ≠ none) : ctlAdd interest fd events refused = .error eexist := by
  unfold ctlAdd
  rw [if_pos (Option.isSome_iff_ne_none.mpr registered)]

/-- The members of `EventLoop` that know the file descriptors, and its epoll instance. -/
structure HandlerTable (Handler : Type) where
  /-- `handlers_`. -/
  handlers : ℤ → Option Handler := fun _ => none
  /-- The interest set of `epoll_fd_`. -/
  interest : InterestSet := fun _ => none

namespace HandlerTable

variable {Handler : Type}

/-- `EventLoop::add`. -/
def add (table : HandlerTable Handler) (fd : ℤ) (events : UInt32) (handler : Handler) (refused : Option ℕ) :
    HandlerTable Handler × Outcome :=
  let table := { table with handlers := Function.update table.handlers fd (some handler) }
  match ctlAdd table.interest fd events refused with
  | .ok interest => ({ table with interest := interest }, .returned)
  | .error code => ({ table with handlers := Function.update table.handlers fd none }, .systemError code)

/-- `EventLoop::modify`. -/
def modify (table : HandlerTable Handler) (fd : ℤ) (events : UInt32) (refused : Option ℕ) :
    HandlerTable Handler × Outcome :=
  match ctlModify table.interest fd events refused with
  | .ok interest => ({ table with interest := interest }, .returned)
  | .error code => (table, if code ≠ enoent ∧ code ≠ ebadf then .systemError code else .returned)

/-- `EventLoop::remove`, and the `errno` that it leaves if the kernel does not know the file descriptor. -/
def remove (table : HandlerTable Handler) (fd : ℤ) : HandlerTable Handler × Option ℕ :=
  let erased := Function.update table.handlers fd none
  match ctlDelete table.interest fd with
  | .ok interest => ({ handlers := erased, interest := interest }, none)
  | .error code => ({ table with handlers := erased }, some code)

/-- A call of one of the three, with the kernel's reason for refusing it, if there is one. -/
inductive Call (Handler : Type)
  | add (fd : ℤ) (events : UInt32) (handler : Handler) (refused : Option ℕ)
  | modify (fd : ℤ) (events : UInt32) (refused : Option ℕ)
  | remove (fd : ℤ)

/-- The table after a call, and how it ends. -/
def call (table : HandlerTable Handler) : Call Handler → HandlerTable Handler × Outcome
  | .add fd events handler refused => table.add fd events handler refused
  | .modify fd events refused => table.modify fd events refused
  | .remove fd => ((table.remove fd).1, .returned)

/-- Calls one after the other. -/
def calls : Machine (HandlerTable Handler) (Call Handler) where
  step table call := some (table.call call).1

/-- The table of a loop that has just been constructed. -/
def made (eventFd : ℤ) (drainWakeup : Handler) : HandlerTable Handler :=
  (add {} eventFd epollin drainWakeup none).1

/-- The table has a handler for exactly the file descriptors in the interest set. -/
def Agrees (table : HandlerTable Handler) : Prop :=
  ∀ fd, (table.handlers fd).isSome = (table.interest fd).isSome

/-- After the call the table agrees with the interest set, and an `add` that throws has left it as it was. -/
def Sound (table : HandlerTable Handler) (call : Call Handler) : Prop :=
  (table.call call).1.Agrees ∧
    ∀ fd events handler refused code, call = .add fd events handler refused →
      (table.call call).2 = .systemError code → (table.call call).1.handlers = table.handlers

/-- The call is no `add` of a file descriptor that is in the interest set. -/
def Fresh (table : HandlerTable Handler) (call : Call Handler) : Prop :=
  ∀ fd events handler refused, call = .add fd events handler refused → table.interest fd = none

/-! ### What one call does -/

/-- Entries for one file descriptor are set on both sides. -/
theorem Agrees.update {table : HandlerTable Handler} (agrees : table.Agrees) (fd : ℤ)
    {handler : Option Handler} {events : Option UInt32} (same : handler.isSome = events.isSome) :
    Agrees { handlers := Function.update table.handlers fd handler
             interest := Function.update table.interest fd events } := by
  intro other
  show (Function.update table.handlers fd handler other).isSome =
    (Function.update table.interest fd events other).isSome
  by_cases here : other = fd
  · rw [here, Function.update_self, Function.update_self, same]
  · rw [Function.update_of_ne here, Function.update_of_ne here, agrees other]

/-- `add`, with what it writes into the table in place. -/
theorem add_eq (table : HandlerTable Handler) (fd : ℤ) (events : UInt32) (handler : Handler)
    (refused : Option ℕ) :
    table.add fd events handler refused =
      match ctlAdd table.interest fd events refused with
      | .ok interest =>
          ({ handlers := Function.update table.handlers fd (some handler), interest := interest }, .returned)
      | .error code =>
          ({ table with
              handlers := Function.update (Function.update table.handlers fd (some handler)) fd none },
            .systemError code) := rfl

/-- **An `add` of a file descriptor that is not registered** registers it, or leaves the table as it was. -/
theorem add_fresh {table : HandlerTable Handler} {fd : ℤ} (events : UInt32) (handler : Handler)
    (refused : Option ℕ) (unknown : table.handlers fd = none) (fresh : table.interest fd = none) :
    table.add fd events handler refused =
      match refused with
      | some code => (table, .systemError code)
      | none => ({ handlers := Function.update table.handlers fd (some handler)
                   interest := Function.update table.interest fd (some events) }, .returned) := by
  rw [add_eq, ctlAdd_fresh events refused fresh]
  cases refused with
  | none => rfl
  | some code =>
      have restored : Function.update (Function.update table.handlers fd (some handler)) fd none =
          table.handlers := by
        rw [Function.update_idem, ← unknown, Function.update_eq_self]
      simp only [restored]

/-- **An `add` of a file descriptor that is registered** throws and erases its handler. -/
theorem add_registered {table : HandlerTable Handler} {fd : ℤ} (events : UInt32) (handler : Handler)
    (refused : Option ℕ) (registered : table.interest fd ≠ none) :
    table.add fd events handler refused =
      ({ table with handlers := Function.update table.handlers fd none }, .systemError eexist) := by
  rw [add_eq, ctlAdd_registered events refused registered, Function.update_idem]

theorem Agrees.modify {table : HandlerTable Handler} (agrees : table.Agrees) (fd : ℤ) (events : UInt32)
    (refused : Option ℕ) : (table.modify fd events refused).1.Agrees := by
  unfold HandlerTable.modify ctlModify
  by_cases unknown : (table.interest fd).isNone = true
  · rw [if_pos unknown]
    exact agrees
  · rw [if_neg unknown]
    cases refused with
    | some code => exact agrees
    | none =>
        have known : (table.handlers fd).isSome = (some events).isSome := by
          rw [agrees fd]
          simpa [Option.isSome_iff_ne_none] using unknown
        have updated := agrees.update fd known
        rwa [Function.update_eq_self] at updated

/-- **`remove` takes the file descriptor out of both**, whatever the kernel says. -/
theorem remove_eq (table : HandlerTable Handler) (fd : ℤ) :
    (table.remove fd).1 = { handlers := Function.update table.handlers fd none
                            interest := Function.update table.interest fd none } := by
  unfold HandlerTable.remove ctlDelete
  by_cases unknown : (table.interest fd).isNone = true
  · have same : Function.update table.interest fd none = table.interest := by
      rw [← Option.isNone_iff_eq_none.mp unknown, Function.update_eq_self]
    rw [if_pos unknown, same]
  · rw [if_neg unknown]

/-- `remove` of a file descriptor that is not registered only leaves an `errno`. -/
theorem remove_unknown {table : HandlerTable Handler} {fd : ℤ} (unknown : table.handlers fd = none)
    (fresh : table.interest fd = none) : table.remove fd = (table, some enoent) := by
  unfold HandlerTable.remove ctlDelete
  rw [if_pos (Option.isNone_iff_eq_none.mpr fresh)]
  simp only [← unknown, Function.update_eq_self]

theorem Agrees.remove {table : HandlerTable Handler} (agrees : table.Agrees) (fd : ℤ) :
    (table.remove fd).1.Agrees := by
  rw [remove_eq]
  exact agrees.update fd rfl

/-- The kernel and the table agree on what is not registered. -/
theorem Agrees.none_iff {table : HandlerTable Handler} (agrees : table.Agrees) (fd : ℤ) :
    table.handlers fd = none ↔ table.interest fd = none := by
  rw [← Option.isNone_iff_eq_none, ← Option.isNone_iff_eq_none, ← Option.not_isSome,
    ← Option.not_isSome, agrees fd]

/-! ### Sequences of calls -/

/-- A fresh call is sound. -/
theorem Agrees.sound {table : HandlerTable Handler} (agrees : table.Agrees) {call : Call Handler}
    (fresh : table.Fresh call) : table.Sound call := by
  cases call with
  | add fd events handler refused =>
      have free := fresh fd events handler refused rfl
      have added := add_fresh events handler refused ((agrees.none_iff _).mpr free) free
      unfold Sound HandlerTable.call
      simp only [added]
      cases refused with
      | some code => exact ⟨agrees, fun _ _ _ _ _ _ _ => rfl⟩
      | none =>
          refine ⟨agrees.update fd rfl, fun _ _ _ _ _ _ threw => ?_⟩
          cases threw
  | modify fd events refused =>
      refine ⟨agrees.modify fd events refused, fun _ _ _ _ _ different => ?_⟩
      cases different
  | remove fd =>
      refine ⟨agrees.remove fd, fun _ _ _ _ _ different => ?_⟩
      cases different

/-- A call that is not fresh is not sound. -/
theorem Sound.fresh {table : HandlerTable Handler} {call : Call Handler} (sound : table.Sound call) :
    table.Fresh call := by
  rintro fd events handler refused rfl
  by_contra registered
  have agrees := sound.1 fd
  rw [HandlerTable.call, add_registered events handler refused registered] at agrees
  simp only [Function.update_self] at agrees
  exact registered (Option.isNone_iff_eq_none.mp (by simpa using agrees.symm))

/-- **The table and the kernel agree after every call, and an `add` that throws leaves the table as it was,
exactly if every `add` of the sequence is of a file descriptor that is not registered at that time.** -/
theorem sound_iff_fresh (eventFd : ℤ) (drainWakeup : Handler) (sequence : List (Call Handler)) :
    calls.Along Sound (made eventFd drainWakeup) sequence ↔
      calls.Along Fresh (made eventFd drainWakeup) sequence := by
  have initially : (made eventFd drainWakeup).Agrees := by
    have empty : Agrees ({} : HandlerTable Handler) := fun _ => rfl
    exact empty.update eventFd rfl
  refine Machine.along_congr Agrees (fun agrees => ⟨Sound.fresh, agrees.sound⟩) ?_ initially
  intro table call next agrees fresh stepped
  cases stepped
  exact (agrees.sound fresh).1

/-- The second of two calls of `add` for file descriptor `7`, as by a second `Session::start`, throws and leaves
the kernel with a registration that the table has lost. -/
theorem sound_fails_on_second_add :
    ¬ calls.Along Sound (made 4 ()) [.add 7 epollin () none, .add 7 epollin () none] := by
  intro sound
  have second := ((sound.2 _ rfl).1).1 7
  revert second
  decide

end HandlerTable

end Insist.MiniRpc
