/-
**Sessions that share a loop thread.**

All sessions of a client or a server belong to one `EventLoop`, whose thread is in the code of at most one
of them. A `SessionPool` is the list of them, each with its tasks; a session is known by its place in the
list, as in the source by its `id_`. When `EventLoop::modify` throws, the exception leaves `run()`, and the
sessions go on once `run()` is called again.

* `step` — one session moves, by its callers or by the loop thread;
* `Sound` — every session is sound, and the loop thread is in at most one of them;
* `FinishedAt.step` — finished sessions stay finished;
* `reaches_close` — the loop thread can bring a session to its close handler if it is in no other one.
-/
import Insist.MiniRpc.SessionClose

namespace Insist.MiniRpc

open Lib

variable {H : Type}

/-! ### A session with its callers -/

namespace Endpoint

/-- The loop thread is in the session's code, or has left `run()` out of it. -/
def busy (endpoint : Endpoint H) : Bool :=
  endpoint.session.control != .idle

/-- The session after `run()` has been called again. -/
def rerun (endpoint : Endpoint H) : Endpoint H :=
  if endpoint.session.control = .thrown then
    { endpoint with session := { endpoint.session with control := .idle } }
  else endpoint

/-- **A finished session stays finished and does not call its close handler.** -/
theorem Moves.of_finished {endpoint endpoint' : Endpoint H} {label : Label H}
    {effects : List (Effect H)} (moves : Moves endpoint label endpoint' effects)
    (finished : endpoint.session.Finished) :
    endpoint'.session.Finished ∧ .close ∉ effects := by
  rcases moves.session_cases with ⟨same, silent⟩ | ⟨action, _, moves⟩
  · rw [same]
    exact ⟨finished, silent⟩
  · obtain ⟨same, rfl | ⟨_, handler, _, rfl⟩⟩ := moves.of_finished finished
    · exact ⟨same ▸ finished, by simp⟩
    · exact ⟨same ▸ finished, Session.close_notMem_invoke _ _⟩

theorem rerun_sound {endpoint : Endpoint H} (sound : endpoint.session.Sound) :
    endpoint.rerun.session.Sound := by
  unfold rerun
  split_ifs with thrown
  · have opened : endpoint.session.open_ = true := sound.wf.open_of_running (by rw [thrown]; rfl)
    exact ⟨Session.wf_of_open opened (by simp) sound.wf.interest_of_unregistered (by simp), sound.registered⟩
  · exact sound

/-- Calling `run()` again leaves a session that has not thrown as it is. -/
theorem rerun_eq {endpoint : Endpoint H} (running : endpoint.session.control ≠ .thrown) :
    endpoint.rerun = endpoint :=
  if_neg running

@[simp] theorem rerun_trace (endpoint : Endpoint H) : endpoint.rerun.trace = endpoint.trace := by
  unfold rerun
  split_ifs <;> rfl

@[simp] theorem rerun_socketFd (endpoint : Endpoint H) :
    endpoint.rerun.session.socketFd = endpoint.session.socketFd := by
  unfold rerun
  split_ifs <;> rfl

@[simp] theorem rerun_readBuffer (endpoint : Endpoint H) :
    endpoint.rerun.session.readBuffer = endpoint.session.readBuffer := by
  unfold rerun
  split_ifs <;> rfl

theorem rerun_running (endpoint : Endpoint H) : endpoint.rerun.session.control ≠ .thrown := by
  unfold rerun
  split_ifs with thrown
  · simp
  · exact thrown

/-- `run()` called again makes no session finished, and no session busy. -/
theorem rerun_finished_iff {endpoint : Endpoint H} (sound : endpoint.session.Sound) :
    endpoint.rerun.session.Finished ↔ endpoint.session.Finished := by
  unfold rerun
  split_ifs with thrown
  · have opened : endpoint.session.open_ = true := sound.wf.open_of_running (by rw [thrown]; rfl)
    simp [Session.Finished, opened]
  · exact Iff.rfl

theorem busy_of_rerun {endpoint : Endpoint H} (busy : endpoint.rerun.busy = true) :
    endpoint.busy = true := by
  by_cases thrown : endpoint.session.control = .thrown
  · simp [Endpoint.busy, thrown]
  · rwa [rerun_eq thrown] at busy

end Endpoint

/-! ### The sessions of one loop -/

/-- The sessions of one loop, in the order in which they were made. -/
structure SessionPool (H : Type) where
  sessions : List (Endpoint H) := []

namespace SessionPool

/-- One session moves. The loop thread is in the code of one session at a time. -/
def step (pool : SessionPool H) (index : ℕ) (label : Endpoint.Label H) :
    Option (SessionPool H × List (Effect H)) :=
  match pool.sessions[index]? with
  | none => none
  | some endpoint =>
      if label.onLoop && (pool.sessions.eraseIdx index).any Endpoint.busy then none
      else (endpoint.step label).map fun answer =>
        ({ sessions := pool.sessions.set index answer.1 }, answer.2)

/-- A session is made and started. -/
def add (pool : SessionPool H) (fd : ℕ) : SessionPool H :=
  { sessions := pool.sessions ++ [.started fd] }

/-- `Session::close` is called on the sessions at these places. -/
def closeAll (pool : SessionPool H) (indices : List ℕ) : SessionPool H :=
  { sessions := pool.sessions.mapIdx fun index endpoint =>
      if index ∈ indices then endpoint.close else endpoint }

/-- `run()` is called again after an exception has left it. -/
def rerun (pool : SessionPool H) : SessionPool H :=
  { sessions := pool.sessions.map Endpoint.rerun }

/-- The loop thread is in the code of no session but this one. -/
def Alone (pool : SessionPool H) (index : ℕ) : Prop :=
  ∀ other endpoint, other ≠ index → pool.sessions[other]? = some endpoint → endpoint.busy = false

theorem alone_iff {pool : SessionPool H} {index : ℕ} :
    (pool.sessions.eraseIdx index).any Endpoint.busy = false ↔ pool.Alone index := by
  rw [List.any_eq_false]
  constructor
  · intro idle other endpoint different found
    have member := List.mem_eraseIdx_iff_getElem?.mpr ⟨other, different, found⟩
    simpa using idle endpoint member
  · intro alone endpoint member
    obtain ⟨other, different, found⟩ := List.mem_eraseIdx_iff_getElem?.mp member
    simpa using alone other endpoint different found

/-- **A step of the pool is a step of one session.** -/
theorem step_cases {pool pool' : SessionPool H} {index : ℕ} {label : Endpoint.Label H}
    {effects : List (Effect H)} (stepped : pool.step index label = some (pool', effects)) :
    ∃ endpoint endpoint', pool.sessions[index]? = some endpoint ∧
      endpoint.step label = some (endpoint', effects) ∧
      pool' = { sessions := pool.sessions.set index endpoint' } ∧
      (label.onLoop = true → pool.Alone index) := by
  unfold step at stepped
  split at stepped
  case h_1 => cases stepped
  case h_2 endpoint found =>
    split_ifs at stepped with blocked
    obtain ⟨answer, moved, same⟩ := Option.map_eq_some_iff.mp stepped
    cases same
    refine ⟨endpoint, answer.1, found, moved, rfl, fun onLoop => alone_iff.mp ?_⟩
    simpa [onLoop] using blocked

/-- A session that may move does. -/
theorem step_of_alone {pool : SessionPool H} {index : ℕ} {label : Endpoint.Label H}
    {endpoint endpoint' : Endpoint H} {effects : List (Effect H)}
    (found : pool.sessions[index]? = some endpoint) (alone : pool.Alone index)
    (moved : endpoint.step label = some (endpoint', effects)) :
    pool.step index label = some ({ sessions := pool.sessions.set index endpoint' }, effects) := by
  have free : ¬ (label.onLoop && (pool.sessions.eraseIdx index).any Endpoint.busy) = true := by
    rw [alone_iff.mpr alone, Bool.and_false]
    exact Bool.false_ne_true
  unfold step
  simp only [found]
  rw [if_neg free, moved]
  rfl

/-! ### What every pool keeps -/

/-- Every session is sound, and the loop thread is in at most one of them. -/
structure Sound (pool : SessionPool H) : Prop where
  each : ∀ (index : ℕ) (endpoint : Endpoint H), pool.sessions[index]? = some endpoint →
    endpoint.session.Sound
  one : ∀ (index : ℕ) (endpoint : Endpoint H), pool.sessions[index]? = some endpoint →
    endpoint.busy = true → pool.Alone index

theorem empty_sound : Sound ({} : SessionPool H) := by
  constructor <;> simp

/-- The session at a place after one at another has changed. -/
theorem getElem?_set_cases {sessions : List (Endpoint H)} {index other : ℕ} {changed endpoint : Endpoint H}
    (found : (sessions.set index changed)[other]? = some endpoint) :
    (other = index ∧ endpoint = changed) ∨ (other ≠ index ∧ sessions[other]? = some endpoint) := by
  by_cases same : other = index
  · subst same
    rw [List.getElem?_set_self'] at found
    obtain ⟨_, _, rfl⟩ := Option.map_eq_some_iff.mp found
    exact Or.inl ⟨rfl, rfl⟩
  · rw [List.getElem?_set_ne (Ne.symm same)] at found
    exact Or.inr ⟨same, found⟩

/-- **Every step keeps the pool sound.** -/
theorem Sound.step {pool pool' : SessionPool H} {index : ℕ} {label : Endpoint.Label H}
    {effects : List (Effect H)} (sound : Sound pool)
    (stepped : pool.step index label = some (pool', effects)) : Sound pool' := by
  obtain ⟨endpoint, endpoint', found, moved, rfl, alone⟩ := step_cases stepped
  have moves := Endpoint.step_moves (sound.each index endpoint found).wf moved
  have kept := moves.sound (sound.each index endpoint found)
  constructor
  · intro other endpoint'' found'
    rcases getElem?_set_cases found' with ⟨_, rfl⟩ | ⟨_, old⟩
    · exact kept
    · exact sound.each other endpoint'' old
  · -- a session becomes busy only by a step of the loop thread, which the others leave free
    have others : ∀ other endpoint'', other ≠ index → pool.sessions[other]? = some endpoint'' →
        endpoint''.busy = true → endpoint'.busy = false := by
      intro other endpoint'' different old busy
      rcases moves.session_cases with ⟨same, _⟩ | ⟨action, onLoop, _⟩
      · rw [Endpoint.busy, same]
        exact sound.one other endpoint'' old busy index endpoint (Ne.symm different) found
      · rw [alone onLoop other endpoint'' different old] at busy
        cases busy
    intro first one found' busy second two different found''
    rcases getElem?_set_cases found' with ⟨rfl, rfl⟩ | ⟨apart, old⟩
    · rcases getElem?_set_cases found'' with ⟨rfl, _⟩ | ⟨apart, old⟩
      · exact absurd rfl different
      · by_contra busy'
        rw [others second two apart old (by simpa using busy')] at busy
        cases busy
    · rcases getElem?_set_cases found'' with ⟨rfl, rfl⟩ | ⟨_, old'⟩
      · exact others first one apart old busy
      · exact sound.one first one old busy second two different old'

/-- A change of every session that keeps it sound and makes it no busier. -/
theorem Sound.of_each {pool pool' : SessionPool H} (sound : Sound pool)
    (each : ∀ (index : ℕ) (endpoint' : Endpoint H), pool'.sessions[index]? = some endpoint' →
      ∃ endpoint, pool.sessions[index]? = some endpoint ∧
        (endpoint.session.Sound → endpoint'.session.Sound) ∧
        (endpoint'.busy = true → endpoint.busy = true)) : Sound pool' where
  each index endpoint' found' := by
    obtain ⟨endpoint, found, kept, _⟩ := each index endpoint' found'
    exact kept (sound.each index endpoint found)
  one index endpoint' found' busy' other other' different foundOther := by
    obtain ⟨endpoint, found, _, busy⟩ := each index endpoint' found'
    obtain ⟨endpointOther, foundOther', _, busyOther⟩ := each other other' foundOther
    have idle := sound.one index endpoint found (busy busy') other endpointOther different foundOther'
    by_contra busy
    rw [busyOther (by simpa using busy)] at idle
    cases idle

theorem getElem?_closeAll (pool : SessionPool H) (indices : List ℕ) (index : ℕ) :
    (pool.closeAll indices).sessions[index]? =
      pool.sessions[index]?.map fun endpoint =>
        if index ∈ indices then endpoint.close else endpoint := by
  rw [closeAll, List.getElem?_mapIdx]

/-- Calling `Session::close` changes no session. -/
theorem session_closeAll {pool : SessionPool H} {indices : List ℕ} {index : ℕ} {endpoint' : Endpoint H}
    (found : (pool.closeAll indices).sessions[index]? = some endpoint') :
    ∃ endpoint, pool.sessions[index]? = some endpoint ∧ endpoint'.session = endpoint.session ∧
      (endpoint'.tasks = endpoint.tasks ∨ endpoint'.tasks = endpoint.tasks ++ [.close]) := by
  rw [getElem?_closeAll] at found
  obtain ⟨endpoint, before, rfl⟩ := Option.map_eq_some_iff.mp found
  refine ⟨endpoint, before, ?_⟩
  split_ifs with chosen
  · exact ⟨rfl, Or.inr rfl⟩
  · exact ⟨rfl, Or.inl rfl⟩

theorem Sound.closeAll {pool : SessionPool H} (sound : Sound pool) (indices : List ℕ) :
    Sound (pool.closeAll indices) :=
  sound.of_each fun index endpoint' found => by
    obtain ⟨endpoint, before, same, _⟩ := session_closeAll found
    refine ⟨endpoint, before, fun kept => same ▸ kept, fun busy => ?_⟩
    rwa [Endpoint.busy, same] at busy

theorem Sound.rerun {pool : SessionPool H} (sound : Sound pool) : Sound pool.rerun :=
  sound.of_each fun index endpoint' found => by
    rw [SessionPool.rerun, List.getElem?_map] at found
    obtain ⟨endpoint, before, rfl⟩ := Option.map_eq_some_iff.mp found
    exact ⟨endpoint, before, Endpoint.rerun_sound, Endpoint.busy_of_rerun⟩

/-- The session at a place after another one has been made. -/
theorem getElem?_add_cases {pool : SessionPool H} {fd index : ℕ} {endpoint : Endpoint H}
    (found : (pool.add fd).sessions[index]? = some endpoint) :
    (index = pool.sessions.length ∧ endpoint = .started fd) ∨ pool.sessions[index]? = some endpoint := by
  rw [add, List.getElem?_append] at found
  split_ifs at found with old
  · exact Or.inr found
  · obtain ⟨inside, same⟩ := List.getElem?_eq_some_iff.mp found
    rw [List.length_singleton] at inside
    have first : index - pool.sessions.length = 0 := by omega
    simp only [first] at same
    exact Or.inl ⟨by omega, same.symm⟩

theorem Sound.add {pool : SessionPool H} (sound : Sound pool) (fd : ℕ) : Sound (pool.add fd) where
  each index endpoint found := by
    rcases getElem?_add_cases found with ⟨_, rfl⟩ | old
    · exact Session.started_sound fd
    · exact sound.each index endpoint old
  one index endpoint found busy other endpoint' different found' := by
    rcases getElem?_add_cases found' with ⟨_, rfl⟩ | old'
    · rfl
    · rcases getElem?_add_cases found with ⟨_, rfl⟩ | old
      · cases busy
      · exact sound.one index endpoint old busy other endpoint' different old'

/-! ### Finished sessions stay finished -/

/-- The session at this place, if there is one, has finished. -/
def FinishedAt (pool : SessionPool H) (index : ℕ) : Prop :=
  ∀ endpoint, pool.sessions[index]? = some endpoint → endpoint.session.Finished

/-- Every session has finished. -/
def Finished (pool : SessionPool H) : Prop :=
  ∀ endpoint ∈ pool.sessions, endpoint.session.Finished

instance (pool : SessionPool H) : Decidable pool.Finished :=
  inferInstanceAs (Decidable (∀ endpoint ∈ pool.sessions, endpoint.session.Finished))

theorem finished_iff {pool : SessionPool H} : pool.Finished ↔ ∀ index, pool.FinishedAt index := by
  constructor
  · exact fun finished index endpoint found => finished endpoint (List.mem_of_getElem? found)
  · intro finished endpoint member
    obtain ⟨index, found⟩ := List.mem_iff_getElem?.mp member
    exact finished index endpoint found

theorem exists_unfinished {pool : SessionPool H} (unfinished : ¬ pool.Finished) :
    ∃ (index : ℕ) (endpoint : Endpoint H),
      pool.sessions[index]? = some endpoint ∧ ¬ endpoint.session.Finished := by
  simp only [Finished, not_forall] at unfinished
  obtain ⟨endpoint, member, unfinished⟩ := unfinished
  obtain ⟨index, found⟩ := List.mem_iff_getElem?.mp member
  exact ⟨index, endpoint, found, unfinished⟩

theorem step_length {pool pool' : SessionPool H} {index : ℕ} {label : Endpoint.Label H}
    {effects : List (Effect H)} (stepped : pool.step index label = some (pool', effects)) :
    pool'.sessions.length = pool.sessions.length := by
  obtain ⟨endpoint, endpoint', _, _, rfl, _⟩ := step_cases stepped
  exact List.length_set

/-- A step leaves the other sessions alone. -/
theorem step_others {pool pool' : SessionPool H} {index other : ℕ} {label : Endpoint.Label H}
    {effects : List (Effect H)} (stepped : pool.step index label = some (pool', effects))
    (different : other ≠ index) : pool'.sessions[other]? = pool.sessions[other]? := by
  obtain ⟨endpoint, endpoint', _, _, rfl, _⟩ := step_cases stepped
  exact List.getElem?_set_ne (Ne.symm different)

theorem FinishedAt.step {pool pool' : SessionPool H} {index other : ℕ} {label : Endpoint.Label H}
    {effects : List (Effect H)} (finished : pool.FinishedAt other) (sound : Sound pool)
    (stepped : pool.step index label = some (pool', effects)) : pool'.FinishedAt other := by
  obtain ⟨endpoint, endpoint', found, moved, rfl, _⟩ := step_cases stepped
  have moves := Endpoint.step_moves (sound.each index endpoint found).wf moved
  intro endpoint'' found'
  rcases getElem?_set_cases found' with ⟨rfl, rfl⟩ | ⟨_, old⟩
  · exact (moves.of_finished (finished endpoint found)).1
  · exact finished endpoint'' old

/-- **A session that runs its close handler had not finished.** -/
theorem not_finishedAt_of_close {pool pool' : SessionPool H} {index : ℕ} {label : Endpoint.Label H}
    {effects : List (Effect H)} (sound : Sound pool)
    (stepped : pool.step index label = some (pool', effects)) (closes : .close ∈ effects) :
    ¬ pool.FinishedAt index := by
  intro finished
  obtain ⟨endpoint, endpoint', found, moved, _, _⟩ := step_cases stepped
  have moves := Endpoint.step_moves (sound.each index endpoint found).wf moved
  exact (moves.of_finished (finished endpoint found)).2 closes

theorem FinishedAt.closeAll {pool : SessionPool H} {index : ℕ} (finished : pool.FinishedAt index)
    (indices : List ℕ) : (pool.closeAll indices).FinishedAt index := by
  intro endpoint' found
  obtain ⟨endpoint, before, same, _⟩ := session_closeAll found
  rw [same]
  exact finished endpoint before

theorem FinishedAt.rerun {pool : SessionPool H} {index : ℕ} (finished : pool.FinishedAt index)
    (sound : Sound pool) : pool.rerun.FinishedAt index := by
  intro endpoint' found
  rw [SessionPool.rerun, List.getElem?_map] at found
  obtain ⟨endpoint, before, rfl⟩ := Option.map_eq_some_iff.mp found
  exact (Endpoint.rerun_finished_iff (sound.each index endpoint before)).mpr (finished endpoint before)

/-! ### Sessions that have not finished -/

/-- There is a session at this place, and it has not finished. -/
def Live (pool : SessionPool H) (index : ℕ) : Prop :=
  ∃ endpoint, pool.sessions[index]? = some endpoint ∧ ¬ endpoint.session.Finished

theorem Live.lt {pool : SessionPool H} {index : ℕ} (live : pool.Live index) :
    index < pool.sessions.length := by
  obtain ⟨endpoint, found, _⟩ := live
  exact (List.getElem?_eq_some_iff.mp found).1

/-- **A session stops being live by its close handler, and by nothing else.** -/
theorem live_step {pool pool' : SessionPool H} {index : ℕ} {label : Endpoint.Label H}
    {effects : List (Effect H)} (sound : Sound pool)
    (stepped : pool.step index label = some (pool', effects)) (other : ℕ) :
    pool'.Live other ↔ pool.Live other ∧ ¬ (other = index ∧ .close ∈ effects) := by
  by_cases different : other ≠ index
  · unfold Live
    rw [step_others stepped different]
    exact ⟨fun live => ⟨live, fun both => different both.1⟩, And.left⟩
  obtain rfl := not_not.mp different
  obtain ⟨endpoint, endpoint', found, moved, rfl, _⟩ := step_cases stepped
  have sessionSound := sound.each other endpoint found
  have moves := Endpoint.step_moves sessionSound.wf moved
  have found' : (pool.sessions.set other endpoint')[other]? = some endpoint' := by
    rw [List.getElem?_set_self', found]
    rfl
  constructor
  · rintro ⟨_, there, unfinished⟩
    cases found'.symm.trans there
    refine ⟨⟨endpoint, found, fun finished => unfinished (moves.of_finished finished).1⟩, ?_⟩
    rintro ⟨_, closes⟩
    rcases moves.session_cases with ⟨_, silent⟩ | ⟨_, _, inside⟩
    · exact silent closes
    · exact unfinished (inside.finished_of_close sessionSound.wf closes)
  · rintro ⟨⟨_, there, unfinished⟩, open_⟩
    cases found.symm.trans there
    refine ⟨endpoint', found', ?_⟩
    rcases moves.session_cases with ⟨same, _⟩ | ⟨_, _, inside⟩
    · rwa [same]
    · exact inside.of_unfinished sessionSound.wf unfinished fun closes => open_ ⟨rfl, closes⟩

theorem live_add (pool : SessionPool H) (fd index : ℕ) :
    (pool.add fd).Live index ↔ pool.Live index ∨ index = pool.sessions.length := by
  constructor
  · rintro ⟨endpoint, found, unfinished⟩
    rcases getElem?_add_cases found with ⟨here, _⟩ | old
    · exact Or.inr here
    · exact Or.inl ⟨endpoint, old, unfinished⟩
  · rintro (⟨endpoint, found, unfinished⟩ | rfl)
    · refine ⟨endpoint, ?_, unfinished⟩
      rw [add, List.getElem?_append_left (List.getElem?_eq_some_iff.mp found).1]
      exact found
    · refine ⟨.started fd, ?_, fun finished => ?_⟩
      · rw [add, List.getElem?_append_right le_rfl, Nat.sub_self]
        rfl
      · cases finished.1

theorem live_rerun {pool : SessionPool H} (sound : Sound pool) (index : ℕ) :
    pool.rerun.Live index ↔ pool.Live index := by
  unfold Live
  rw [SessionPool.rerun, List.getElem?_map]
  constructor
  · rintro ⟨endpoint', found, unfinished⟩
    obtain ⟨endpoint, before, rfl⟩ := Option.map_eq_some_iff.mp found
    exact ⟨endpoint, before, fun finished =>
      unfinished ((Endpoint.rerun_finished_iff (sound.each index endpoint before)).mpr finished)⟩
  · rintro ⟨endpoint, found, unfinished⟩
    refine ⟨endpoint.rerun, by rw [found]; rfl, fun finished => unfinished ?_⟩
    exact (Endpoint.rerun_finished_iff (sound.each index endpoint found)).mp finished

/-! ### The others can come to their close handlers -/

/-- The loop thread goes on with one session, short of a task and of the close handler. -/
def solo (index : ℕ) : Machine (SessionPool H) (Action H) where
  step pool action :=
    match pool.step index (.session action) with
    | some (pool', effects) => if effects.any Effect.isClose then none else some pool'
    | none => none

theorem solo_step {pool pool' : SessionPool H} {index : ℕ} {action : Action H} :
    (solo index).step pool action = some pool' ↔
      ∃ effects, pool.step index (.session action) = some (pool', effects) ∧ .close ∉ effects := by
  rcases stepped : pool.step index (.session action) with _ | ⟨next, effects⟩
  · simp [solo, stepped]
  · simp only [solo, stepped]
    split_ifs with closes
    · constructor
      · intro impossible
        cases impossible
      · rintro ⟨_, same, silent⟩
        cases same
        exact absurd ((Effect.any_isClose effects).mp closes) silent
    · constructor
      · intro same
        cases same
        exact ⟨effects, rfl, fun close => closes ((Effect.any_isClose effects).mpr close)⟩
      · rintro ⟨_, same, _⟩
        cases same
        rfl

/-- A session is left alone while the loop thread goes on with another one. -/
theorem solo_others {pool pool' : SessionPool H} {index other : ℕ} {actions : List (Action H)}
    (ran : (solo index).run pool actions = some pool') (different : other ≠ index) :
    pool'.sessions[other]? = pool.sessions[other]? := by
  refine Machine.invariant_run (fun later => later.sessions[other]? = pool.sessions[other]?)
    (fun same stepped => ?_) rfl ran
  obtain ⟨effects, moved, _⟩ := solo_step.mp stepped
  exact (step_others moved different).trans same

/-- **The loop thread can bring a session to its close handler**, if it is in no other session. -/
theorem reaches_close {pool : SessionPool H} {index : ℕ} {endpoint : Endpoint H}
    (found : pool.sessions[index]? = some endpoint) (alone : pool.Alone index)
    (closes : endpoint.session.Closes) :
    ∃ actions later action last effects, (solo index).run pool actions = some later ∧
      later.step index (.session action) = some (last, effects) ∧ .close ∈ effects := by
  obtain ⟨session, same⟩ : ∃ session, session = endpoint.session := ⟨_, rfl⟩
  rw [← same] at closes
  -- the session's part of the endpoint moves as in `Closes`, and the others stay idle
  have lift {endpoint : Endpoint H} {action : Action H} {session' : Session H} {effects : List (Effect H)}
      (inside : action.fromTask = false) (stepped : endpoint.session.step action = some (session', effects)) :
      endpoint.step (.session action) = some (endpoint.advance endpoint.tasks [] (session', effects)) := by
    simp [Endpoint.step, inside, stepped]
  induction closes generalizing pool endpoint with
  | @last session session' action effects inside stepped closes =>
      subst same
      exact ⟨[], pool, action, _, effects, rfl, step_of_alone found alone (lift inside stepped), closes⟩
  | @next session session' action effects inside stepped silent later ih =>
      subst same
      have moved := step_of_alone found alone (lift inside stepped)
      have found' : (pool.sessions.set index
          (endpoint.advance endpoint.tasks [] (session', effects)).1)[index]? =
            some (endpoint.advance endpoint.tasks [] (session', effects)).1 := by
        rw [List.getElem?_set_self', found]
        rfl
      obtain ⟨actions, pool', action', last, effects', ran, rest⟩ := ih found'
        (fun other endpoint' different old =>
          alone other endpoint' different ((step_others moved different).symm.trans old)) rfl
      exact ⟨action :: actions, pool', action', last, effects',
        Machine.run_cons_eq_some _ |>.mpr ⟨_, solo_step.mpr ⟨effects, moved, silent⟩, ran⟩, rest⟩

/-- **If some session has not finished, the loop thread can go on with one that has not**: with the one it is
in, or else with this one. -/
theorem exists_alone {pool : SessionPool H} (sound : Sound pool) {index : ℕ} {endpoint : Endpoint H}
    (found : pool.sessions[index]? = some endpoint) (unfinished : ¬ endpoint.session.Finished) :
    ∃ other endpoint', pool.sessions[other]? = some endpoint' ∧ ¬ endpoint'.session.Finished ∧
      pool.Alone other ∧ (other = index ∨ endpoint'.busy = true) := by
  by_cases away : ∃ (other : ℕ) (endpoint' : Endpoint H),
      pool.sessions[other]? = some endpoint' ∧ endpoint'.busy = true
  · obtain ⟨other, endpoint', there, busy⟩ := away
    refine ⟨other, endpoint', there, fun finished => ?_, sound.one other endpoint' there busy, Or.inr busy⟩
    rw [Endpoint.busy, finished.2] at busy
    cases busy
  · refine ⟨index, endpoint, found, unfinished, fun other endpoint' _ there => ?_, Or.inl rfl⟩
    by_contra busy
    exact away ⟨other, endpoint', there, by simpa using busy⟩

/-- **As long as some session has not finished, a close handler can still run**: once `run()` is called again,
that of this session, or of the one that the loop thread was in. -/
theorem exists_close {pool : SessionPool H} (sound : Sound pool) {index : ℕ} {endpoint : Endpoint H}
    (found : pool.sessions[index]? = some endpoint) (unfinished : ¬ endpoint.session.Finished) :
    ∃ other actions later action last effects,
      (other = index ∨ ∃ endpoint', pool.sessions[other]? = some endpoint' ∧ endpoint'.busy = true) ∧
      (solo other).run pool.rerun actions = some later ∧
      later.step other (.session action) = some (last, effects) ∧ .close ∈ effects := by
  have again (other : ℕ) : pool.rerun.sessions[other]? = pool.sessions[other]?.map Endpoint.rerun := by
    rw [SessionPool.rerun, List.getElem?_map]
  have found' : pool.rerun.sessions[index]? = some endpoint.rerun := by rw [again, found]; rfl
  obtain ⟨other, endpoint', there, unfinished', alone, which⟩ := exists_alone sound.rerun found'
    (fun finished =>
      unfinished ((Endpoint.rerun_finished_iff (sound.each index endpoint found)).mp finished))
  obtain ⟨before, old, rfl⟩ := Option.map_eq_some_iff.mp ((again other).symm.trans there)
  obtain ⟨actions, later, action, last, effects, ran, closing, closes⟩ := reaches_close there alone
    (Session.closes_of_unfinished (sound.rerun.each other _ there) unfinished' before.rerun_running)
  refine ⟨other, actions, later, action, last, effects, which.imp id fun busy => ?_, ran, closing, closes⟩
  exact ⟨before, old, Endpoint.busy_of_rerun busy⟩

end SessionPool

end Insist.MiniRpc
