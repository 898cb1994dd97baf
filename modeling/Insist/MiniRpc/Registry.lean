/-
**`TcpServer::sessions_`** (`src/server.cpp`, `Session::next_id_` of `src/session.cpp`).

A server puts every session that it accepts into `sessions_` under the session's id, `stop` clears the map, and
the close handler of a session erases the session's id, maybe long after a `stop` and after new sessions have
been accepted.

* `Numbered` — the ids are those that a 64-bit counter hands out, so they are distinct until it wraps;
* `Registered` — the entries of `sessions_` are the sessions accepted since the last `stop` whose close handler
  has not run, each under its own id;
* `sessions_exact` — in every run, as long as no id is handed out twice and no `start` throws after
  `bind_and_listen` while the loop thread has copied the listener's handler or is in it.
-/
import Insist.MiniRpc.ServerWorld
import Mathlib.Data.List.Nodup

namespace Insist.MiniRpc

open Lib

variable {H : Type}

/-! ### The ids -/

/-- The ids that a 64-bit counter has handed out, from `1` on, and the one that is next. -/
structure Numbered (ids : List UInt64) (next : UInt64) : Prop where
  next : next = UInt64.ofNat (1 + ids.length)
  each : ∀ id ∈ ids, ∃ number < ids.length, id = UInt64.ofNat (1 + number)
  distinct : ids.length ≤ 2 ^ 64 → ids.Nodup

namespace Numbered

theorem nil : Numbered [] 1 where
  next := rfl
  each id member := by cases member
  distinct _ := List.nodup_nil

/-- Before the counter wraps, the next id is new. -/
theorem fresh {ids : List UInt64} {next : UInt64} (numbered : Numbered ids next)
    (few : ids.length < 2 ^ 64) : next ∉ ids := by
  intro member
  obtain ⟨number, below, same⟩ := numbered.each next member
  have equal := congrArg UInt64.toNat (numbered.next.symm.trans same)
  rw [UInt64.toNat_ofNat', UInt64.toNat_ofNat'] at equal
  omega

/-- The counter hands out an id. -/
theorem draw {ids ids' : List UInt64} {next : UInt64} (numbered : Numbered ids next)
    (drawn : ids'.Perm (next :: ids)) : Numbered ids' (next + 1) := by
  have length : ids'.length = ids.length + 1 := by
    rw [drawn.length_eq, List.length_cons]
  refine ⟨?_, fun id member => ?_, fun few => ?_⟩
  · rw [length, numbered.next]
    apply UInt64.toNat_inj.mp
    rw [UInt64.toNat_add, UInt64.toNat_ofNat', UInt64.toNat_ofNat', UInt64.toNat_one]
    omega
  · rw [length]
    rcases List.mem_cons.mp (drawn.mem_iff.mp member) with rfl | old
    · exact ⟨ids.length, Nat.lt_succ_self _, numbered.next⟩
    · obtain ⟨number, below, same⟩ := numbered.each id old
      exact ⟨number, Nat.lt_succ_of_lt below, same⟩
  · rw [drawn.nodup_iff, List.nodup_cons]
    exact ⟨numbered.fresh (by omega), numbered.distinct (by omega)⟩

end Numbered

namespace ServerWorld

/-- The ids of all sessions of the process. -/
def allIds (world : ServerWorld H) : List UInt64 := world.ids ++ world.otherIds

/-- The session at this place is open. -/
def OpenAt (world : ServerWorld H) (index : ℕ) : Prop :=
  ∃ endpoint, world.pool.sessions[index]? = some endpoint ∧ endpoint.session.open_ = true

/-- The loop thread is in no session's code, or an exception has left it. -/
def Between (world : ServerWorld H) : Prop :=
  ∀ endpoint ∈ world.pool.sessions,
    endpoint.session.control = .idle ∨ endpoint.session.control = .thrown

instance (world : ServerWorld H) : Decidable world.Between :=
  inferInstanceAs (Decidable (∀ endpoint ∈ world.pool.sessions,
    endpoint.session.control = .idle ∨ endpoint.session.control = .thrown))

/-- The step is no `start` that throws after `bind_and_listen` while the loop thread has copied the listener's
handler or is in it. -/
def orderly (world : ServerWorld H) : Label H → Bool
  | .start .setupFailed => world.server.started || world.listener == .idle
  | _ => true

/-- Servers whose steps are orderly. -/
def orderlyMachine : Machine (ServerWorld H) (Label H) :=
  machine.guarded fun world label => world.orderly label = true

/-! ### The entries -/

/-- What `sessions_` holds. -/
structure Registered (world : ServerWorld H) : Prop where
  lengths : world.ids.length = world.pool.sessions.length
  entries : ∀ id index, (id, index) ∈ world.server.sessions ↔
    index ∈ world.sinceStop ∧ world.ids[index]? = some id ∧ world.pool.Live index
  keys : (world.server.sessions.map Prod.fst).Nodup
  stopped : world.server.started = false → world.server.sessions = []
  listening : world.listener ≠ .idle → world.server.listening = true → world.server.started = true

theorem new_registered : Registered ({} : ServerWorld H) where
  lengths := rfl
  entries id index := by simp
  keys := List.nodup_nil
  stopped _ := rfl
  listening busy := absurd rfl busy

/-- Keys that are unique stay so when entries go. -/
theorem keys_filter {sessions : List (UInt64 × ℕ)} (keys : (sessions.map Prod.fst).Nodup)
    (kept : UInt64 × ℕ → Bool) : ((sessions.filter kept).map Prod.fst).Nodup :=
  List.Nodup.sublist (List.filter_sublist.map Prod.fst) keys

/-- A place is found under one id only. -/
theorem index_unique {ids : List UInt64} (distinct : ids.Nodup) {first second : ℕ} {id : UInt64}
    (here : ids[first]? = some id) (there : ids[second]? = some id) : first = second := by
  obtain ⟨inside, same⟩ := List.getElem?_eq_some_iff.mp here
  obtain ⟨inside', same'⟩ := List.getElem?_eq_some_iff.mp there
  exact (List.Nodup.getElem_inj_iff distinct).mp (same.trans same'.symm)

/-- `stop` leaves nothing. -/
theorem Registered.stop {world : ServerWorld H} (registered : Registered world) :
    Registered world.stop := by
  unfold ServerWorld.stop
  by_cases nothing : (!world.server.started && !world.server.listening) = true
  · rw [if_pos nothing]
    have started : world.server.started = false := by simpa using (Bool.and_eq_true_iff.mp nothing).1
    have empty := registered.stopped started
    refine ⟨registered.lengths, fun id index => ?_, registered.keys, registered.stopped, registered.listening⟩
    show (id, index) ∈ world.server.sessions ↔ index ∈ ([] : List ℕ) ∧ _
    rw [empty]
    simp
  · rw [if_neg nothing]
    refine ⟨?_, fun id index => by simp, List.nodup_nil, fun _ => rfl, fun _ impossible => ?_⟩
    · rw [registered.lengths]
      simp [SessionPool.closeAll]
    · cases impossible

/-- `start` changes no entry. -/
theorem Registered.start {world : ServerWorld H} (registered : Registered world) {result : StartResult}
    (orderly : world.orderly (.start result) = true) : Registered (world.start result) := by
  unfold ServerWorld.start
  by_cases started : world.server.started = true
  · rw [if_pos started]
    exact registered
  · rw [if_neg started]
    have idle := eq_false_of_ne_true started
    cases result with
    | ok =>
        refine ⟨registered.lengths, registered.entries, registered.keys, fun stopped => ?_, fun _ _ => rfl⟩
        cases stopped
    | bindFailed =>
        refine ⟨registered.lengths, registered.entries, registered.keys, registered.stopped, ?_⟩
        intro _ listening
        cases listening
    | setupFailed =>
        refine ⟨registered.lengths, registered.entries, registered.keys, registered.stopped, ?_⟩
        intro busy
        have here : world.listener = .idle := by
          simpa [ServerWorld.orderly, idle] using orderly
        exact absurd here busy

/-- **A new session gets an entry of its own**, if its id is new. -/
theorem Registered.connection {world : ServerWorld H} (registered : Registered world)
    (fresh : world.nextId ∉ world.ids) (started : world.server.started = true) (fd : ℕ) :
    Registered (world.accept (.connection fd)) := by
  have absent : ∀ entry ∈ world.server.sessions, entry.1 ≠ world.nextId := by
    intro entry member same
    have own := ((registered.entries entry.1 entry.2).mp member).2.1
    rw [same] at own
    exact fresh (List.mem_of_getElem? own)
  have appended : assign world.server.sessions world.nextId world.pool.sessions.length =
      world.server.sessions ++ [(world.nextId, world.pool.sessions.length)] := by
    unfold assign
    rw [List.filter_eq_self.mpr fun entry member => by simpa using absent entry member]
  refine ⟨?_, fun id index => ?_, ?_, fun stopped => ?_, registered.listening⟩
  · show (world.ids ++ [world.nextId]).length = (world.pool.sessions ++ [_]).length
    rw [List.length_append, List.length_append, registered.lengths]
    rfl
  · show (id, index) ∈ assign world.server.sessions world.nextId world.pool.sessions.length ↔
      index ∈ world.sinceStop ++ [world.pool.sessions.length] ∧
        (world.ids ++ [world.nextId])[index]? = some id ∧ (world.pool.add fd).Live index
    rw [appended, List.mem_append, List.mem_append, registered.entries, List.mem_singleton,
      List.mem_singleton, SessionPool.live_add, Prod.mk.injEq]
    by_cases new : index = world.pool.sessions.length
    · have here : (world.ids ++ [world.nextId])[index]? = some world.nextId := by
        rw [new, ← registered.lengths, List.getElem?_concat_length]
      have notLive : ¬ world.pool.Live index := fun live => by
        have := live.lt
        omega
      rw [here]
      constructor
      · rintro (⟨_, _, live⟩ | ⟨rfl, _⟩)
        · exact absurd live notLive
        · exact ⟨Or.inr new, rfl, Or.inr new⟩
      · rintro ⟨_, same, _⟩
        exact Or.inr ⟨(Option.some.inj same).symm, new⟩
    · constructor
      · rintro (⟨recent, own, live⟩ | ⟨_, here⟩)
        · refine ⟨Or.inl recent, ?_, Or.inl live⟩
          rw [List.getElem?_append_left (List.getElem?_eq_some_iff.mp own).1]
          exact own
        · exact absurd here new
      · rintro ⟨recent, own, live⟩
        have live := live.resolve_right new
        have inside : index < world.ids.length := registered.lengths ▸ live.lt
        rw [List.getElem?_append_left inside] at own
        exact Or.inl ⟨recent.resolve_right new, own, live⟩
  · show ((assign world.server.sessions world.nextId world.pool.sessions.length).map Prod.fst).Nodup
    rw [appended, List.map_append, List.nodup_append]
    refine ⟨registered.keys, List.nodup_singleton _, ?_⟩
    intro id member other new
    obtain ⟨entry, found, rfl⟩ := List.mem_map.mp member
    rw [List.mem_singleton.mp new]
    exact absent entry found
  · rw [show (world.accept (.connection fd)).server.started = world.server.started from rfl, started] at stopped
    cases stopped

/-- **A session leaves `sessions_` when its close handler runs.** -/
theorem Registered.session {world : ServerWorld H} (registered : Registered world) (distinct : world.ids.Nodup)
    (sound : world.pool.Sound) {index : ℕ} {label : Endpoint.Label H} {pool : SessionPool H}
    {effects : List (Effect H)} (moved : world.pool.step index label = some (pool, effects)) :
    Registered (world.absorb index (pool, effects)).1 := by
  have lengths : world.ids.length = pool.sessions.length := by
    rw [registered.lengths, SessionPool.step_length moved]
  have live := SessionPool.live_step sound moved
  unfold ServerWorld.absorb
  by_cases closes : effects.any Effect.isClose = true
  · simp only [closes, if_true]
    have closing := (Effect.any_isClose effects).mp closes
    refine ⟨lengths, fun id other => ?_, keys_filter registered.keys _, fun stopped => ?_, registered.listening⟩
    · show (id, other) ∈ world.server.sessions.filter _ ↔ _
      rw [List.mem_filter, registered.entries, live]
      constructor
      · rintro ⟨⟨recent, own, alive⟩, elsewhere⟩
        refine ⟨recent, own, alive, fun both => ?_⟩
        rw [← both.1, own] at elsewhere
        simp at elsewhere
      · rintro ⟨recent, own, alive, notClosing⟩
        refine ⟨⟨recent, own, alive⟩, ?_⟩
        by_contra same
        have here : world.ids[index]? = some id := by simpa using same
        exact notClosing ⟨index_unique distinct own here, closing⟩
    · show world.server.sessions.filter _ = []
      rw [registered.stopped stopped]
      rfl
  · simp only [closes]
    have silent : .close ∉ effects := fun closing => closes ((Effect.any_isClose effects).mpr closing)
    refine ⟨lengths, fun id other => ?_, registered.keys, registered.stopped, registered.listening⟩
    show (id, other) ∈ world.server.sessions ↔ _
    rw [registered.entries, live]
    constructor
    · exact fun entry => ⟨entry.1, entry.2.1, entry.2.2, fun both => silent both.2⟩
    · exact fun entry => ⟨entry.1, entry.2.1, entry.2.2.1⟩

/-! ### Every run -/

/-- What holds in every run whose steps are orderly. -/
structure Kept (world : ServerWorld H) : Prop where
  formed : Formed world
  numbered : Numbered world.allIds world.nextId
  registered : world.allIds.length ≤ 2 ^ 64 → Registered world

theorem new_kept : Kept ({} : ServerWorld H) :=
  ⟨new_formed, .nil, fun _ => new_registered⟩

/-- A step that hands out no id. -/
theorem Kept.same {world world' : ServerWorld H} (kept : Kept world) (formed : Formed world')
    (ids : world'.allIds = world.allIds) (next : world'.nextId = world.nextId)
    (registered : world.ids.Nodup → Registered world → Registered world') : Kept world' := by
  refine ⟨formed, ?_, fun few => ?_⟩
  · rw [ids, next]
    exact kept.numbered
  · rw [ids] at few
    have distinct : world.ids.Nodup := (List.nodup_append.mp (kept.numbered.distinct few)).1
    exact registered distinct (kept.registered few)

/-- A step that hands out the next id. -/
theorem Kept.draw {world world' : ServerWorld H} (kept : Kept world) (formed : Formed world')
    (drawn : world'.allIds.Perm (world.nextId :: world.allIds)) (next : world'.nextId = world.nextId + 1)
    (registered : world.nextId ∉ world.ids → Registered world → Registered world') : Kept world' := by
  refine ⟨formed, ?_, fun few => ?_⟩
  · rw [next]
    exact kept.numbered.draw drawn
  · rw [drawn.length_eq, List.length_cons] at few
    have fresh : world.nextId ∉ world.ids := fun member =>
      kept.numbered.fresh (by omega) (List.mem_append_left _ member)
    exact registered fresh (kept.registered (by omega))

theorem start_ids (world : ServerWorld H) (result : StartResult) :
    (world.start result).allIds = world.allIds ∧ (world.start result).nextId = world.nextId := by
  unfold ServerWorld.start
  by_cases started : world.server.started = true
  · rw [if_pos started]
    exact ⟨rfl, rfl⟩
  · rw [if_neg started]
    cases result with
    | ok | bindFailed | setupFailed => exact ⟨rfl, rfl⟩

theorem stop_ids (world : ServerWorld H) :
    world.stop.allIds = world.allIds ∧ world.stop.nextId = world.nextId := by
  unfold ServerWorld.stop
  by_cases nothing : (!world.server.started && !world.server.listening) = true
  · rw [if_pos nothing]
    exact ⟨rfl, rfl⟩
  · rw [if_neg nothing]
    exact ⟨rfl, rfl⟩

/-- What an accepted connection leaves. -/
theorem Kept.connection {world : ServerWorld H} (kept : Kept world) {fd : ℕ}
    (formed : Formed (world.accept (.connection fd))) (busy : world.listener ≠ .idle)
    (listening : world.server.listening = true) : Kept (world.accept (.connection fd)) := by
  have drawn : (world.accept (.connection fd)).allIds.Perm (world.nextId :: world.allIds) := by
    show ((world.ids ++ [world.nextId]) ++ world.otherIds).Perm _
    rw [List.append_assoc]
    exact List.perm_middle
  exact kept.draw formed drawn rfl fun fresh registered =>
    registered.connection fresh (registered.listening busy listening) fd

/-- **Every orderly step keeps the registry.** -/
theorem Kept.step {world world' : ServerWorld H} (kept : Kept world) {label : Label H}
    (orderly : world.orderly label = true) {effects : List (ServerEffect H)}
    (stepped : world.step label = some (world', effects)) : Kept world' := by
  have formed := kept.formed.step stepped
  cases label with
  | start result =>
      simp only [ServerWorld.step] at stepped
      split_ifs at stepped
      cases stepped
      obtain ⟨ids, next⟩ := start_ids world result
      exact kept.same formed ids next fun _ registered => registered.start orderly
  | stop =>
      simp only [ServerWorld.step] at stepped
      split_ifs at stepped
      cases stepped
      obtain ⟨ids, next⟩ := stop_ids world
      exact kept.same formed ids next fun _ registered => registered.stop
  | dispatch =>
      simp only [ServerWorld.step] at stepped
      split_ifs at stepped with free
      cases stepped
      have inTable : world.registered = true := by
        simp only [Bool.and_eq_true] at free
        exact free.1.1
      exact kept.same formed rfl rfl fun _ registered =>
        ⟨registered.lengths, registered.entries, registered.keys, registered.stopped,
          fun _ _ => (kept.formed.listening inTable).1⟩
  | enter readable =>
      simp only [ServerWorld.step] at stepped
      by_cases found : world.listener = .found
      · rw [if_pos found] at stepped
        cases stepped
        exact kept.same formed rfl rfl fun _ registered =>
          ⟨registered.lengths, registered.entries, registered.keys, registered.stopped,
            fun _ => registered.listening (by rw [found]; exact Listener.noConfusion)⟩
      · rw [if_neg found] at stepped
        cases stepped
  | accept result =>
      simp only [ServerWorld.step] at stepped
      split_ifs at stepped with ready
      cases stepped
      have busy : world.listener ≠ .idle := by
        rw [ready.1]
        exact Listener.noConfusion
      cases result with
      | connection fd =>
          exact kept.connection formed busy (ready.2.resolve_right AcceptResult.noConfusion)
      | interrupted => exact kept
      | blocked | failed =>
          exact kept.same formed rfl rfl fun _ registered =>
            ⟨registered.lengths, registered.entries, registered.keys, registered.stopped,
              fun idle => absurd rfl idle⟩
  | session index label =>
      simp only [ServerWorld.step] at stepped
      split_ifs at stepped
      obtain ⟨⟨pool, effects'⟩, moved, same⟩ := Option.map_eq_some_iff.mp stepped
      cases same
      exact kept.same formed rfl rfl fun distinct registered =>
        registered.session distinct kept.formed.sound moved
  | other =>
      cases stepped
      have drawn : (world.ids ++ (world.otherIds ++ [world.nextId])).Perm (world.nextId :: world.allIds) := by
        rw [← List.append_assoc]
        exact List.perm_append_singleton _ _
      exact kept.draw formed drawn rfl fun _ registered =>
        ⟨registered.lengths, registered.entries, registered.keys, registered.stopped, registered.listening⟩
  | rerun =>
      cases stepped
      refine kept.same formed rfl rfl fun _ registered =>
        ⟨?_, fun id index => ?_, registered.keys, registered.stopped, registered.listening⟩
      · rw [registered.lengths]
        simp [SessionPool.rerun]
      · rw [SessionPool.live_rerun kept.formed.sound]
        exact registered.entries id index
  | destroy =>
      simp only [ServerWorld.step] at stepped
      split_ifs at stepped
      cases stepped
      obtain ⟨ids, next⟩ := stop_ids world
      exact kept.same formed ids next fun _ registered =>
        ⟨registered.stop.lengths, registered.stop.entries, registered.stop.keys, registered.stop.stopped,
          registered.stop.listening⟩

/-- Between callbacks, the open sessions are those whose close handler has not run. -/
theorem live_iff_open {world : ServerWorld H} (sound : world.pool.Sound) (between : world.Between) (index : ℕ) :
    world.pool.Live index ↔ world.OpenAt index := by
  refine exists_congr fun endpoint => and_congr_right fun found => ?_
  constructor
  · intro unfinished
    rcases between endpoint (List.mem_of_getElem? found) with idle | thrown
    · by_contra closed
      exact unfinished ⟨eq_false_of_ne_true closed, idle⟩
    · exact (sound.each index endpoint found).wf.open_of_running (by rw [thrown]; rfl)
  · intro opened finished
    rw [finished.1] at opened
    cases opened

/-- A session's step takes no entry but its own out of `sessions_`. -/
theorem Registered.erases_own {world : ServerWorld H} (registered : Registered world)
    (distinct : world.ids.Nodup) {index : ℕ} {entry : UInt64 × ℕ} (member : entry ∈ world.server.sessions)
    (other : entry.2 ≠ index) : entry ∈ (world.erase index).sessions := by
  refine List.mem_filter.mpr ⟨member, ?_⟩
  have own := ((registered.entries entry.1 entry.2).mp member).2.1
  by_contra same
  exact other (index_unique distinct own (by simpa using same))

/-- **`sessions_` holds exactly the open sessions accepted since the last `stop`, each under its own id**: in
every run in which no `start` throws after `bind_and_listen` while the loop thread has copied the listener's
handler or is in it, as long as the process has made at most `2 ^ 64` sessions. No two ids are the same, and
whatever a session does, its close included, removes no other one from `sessions_`. -/
theorem sessions_exact {labels : List (Label H)} {world : ServerWorld H}
    (ran : orderlyMachine.run {} labels = some world) (few : world.allIds.length ≤ 2 ^ 64) :
    world.allIds.Nodup ∧ (world.server.sessions.map Prod.fst).Nodup ∧
      (world.Between → ∀ id index, (id, index) ∈ world.server.sessions ↔
        index ∈ world.sinceStop ∧ world.ids[index]? = some id ∧ world.OpenAt index) ∧
      ∀ (index : ℕ) (label : Endpoint.Label H) (world' : ServerWorld H) (effects : List (ServerEffect H)),
        world.step (.session index label) = some (world', effects) →
        ∀ entry ∈ world.server.sessions, entry.2 ≠ index → entry ∈ world'.server.sessions := by
  have kept : Kept world := by
    refine Machine.invariant_run Kept (fun kept stepped => ?_) new_kept ran
    obtain ⟨orderly, moved⟩ := Machine.guarded_step.mp stepped
    obtain ⟨effects, stepped⟩ := machine_step.mp moved
    exact kept.step orderly stepped
  have distinct := kept.numbered.distinct few
  have registered := kept.registered few
  refine ⟨distinct, registered.keys, fun between id index => ?_, ?_⟩
  · rw [registered.entries, live_iff_open kept.formed.sound between]
  · intro index label world' effects stepped entry member other
    simp only [ServerWorld.step] at stepped
    split_ifs at stepped
    obtain ⟨⟨pool, effects'⟩, moved, same⟩ := Option.map_eq_some_iff.mp stepped
    cases same
    show entry ∈ (if _ then _ else _ : TcpServer).sessions
    split_ifs
    · exact registered.erases_own (List.nodup_append.mp distinct).1 member other
    · exact member

/-- A server that is stopped and started again with a session open, and then accepts another one. -/
def restarted : List (Label ℕ) :=
  [.start .ok, .dispatch, .enter true, .accept (.connection 5), .accept .blocked, .stop, .start .ok, .dispatch,
    .enter true, .accept (.connection 6), .accept .blocked]

/-- The loop runs the close that `stop` has posted for the first session. -/
def closedLate : List (Label ℕ) := [.session 0 (.run 0), .session 0 (.session .drain)]

theorem restarted_exact : ∃ before after : ServerWorld ℕ, orderlyMachine.run {} restarted = some before ∧
    orderlyMachine.run before closedLate = some after ∧
    before.pool.sessions.map (fun endpoint => endpoint.session.open_) = [true, true] ∧
    after.pool.sessions.map (fun endpoint => endpoint.session.open_) = [false, true] ∧
    (2, 1) ∈ before.server.sessions ∧ (2, 1) ∈ after.server.sessions ∧ (1, 0) ∉ before.server.sessions := by
  obtain ⟨before, first, few, between, opened, recent, id⟩ : ∃ before : ServerWorld ℕ,
      orderlyMachine.run {} restarted = some before ∧ before.allIds.length ≤ 2 ^ 64 ∧ before.Between ∧
        before.pool.sessions.map (fun endpoint => endpoint.session.open_) = [true, true] ∧
        before.sinceStop = [1] ∧ before.ids[1]? = some 2 := by
    refine ⟨(orderlyMachine.run {} restarted).get (by decide +kernel), (Option.some_get _).symm, ?_⟩
    decide +kernel
  obtain ⟨after, whole, few', between', opened', recent', id'⟩ : ∃ after : ServerWorld ℕ,
      orderlyMachine.run {} (restarted ++ closedLate) = some after ∧ after.allIds.length ≤ 2 ^ 64 ∧
        after.Between ∧ after.pool.sessions.map (fun endpoint => endpoint.session.open_) = [false, true] ∧
        after.sinceStop = [1] ∧ after.ids[1]? = some 2 := by
    refine ⟨(orderlyMachine.run {} (restarted ++ closedLate)).get (by decide +kernel),
      (Option.some_get _).symm, ?_⟩
    decide +kernel
  have second : orderlyMachine.run before closedLate = some after := by
    rwa [Machine.run_append, first, Option.bind_some] at whole
  have exact := (sessions_exact first few).2.2.1 between
  have exact' := (sessions_exact whole few').2.2.1 between'
  refine ⟨before, after, first, second, opened, opened', (exact 2 1).mpr ⟨by simp [recent], id, ?_⟩,
    (exact' 2 1).mpr ⟨by simp [recent'], id', ?_⟩, fun member => ?_⟩
  · have found := congrArg (fun flags : List Bool => flags[1]?) opened
    simpa [OpenAt] using found
  · have found := congrArg (fun flags : List Bool => flags[1]?) opened'
    simpa [OpenAt] using found
  · have recent'' := ((exact 1 0).mp member).1
    simp [recent] at recent''

/-! ### Where it breaks -/

/-- A session handler stops the server and starts it again, but `start` throws after `bind_and_listen`; the
listening socket accepts a session, and after another failing `start` the server takes itself for stopped. -/
def abandoned : List (Label ℕ) :=
  [.start .ok, .dispatch, .enter true, .accept (.connection 5), .stop, .start .setupFailed,
    .accept (.connection 6), .accept .blocked, .start .bindFailed, .stop]

/-- Other sessions are made. -/
theorem run_others (world : ServerWorld H) (count : ℕ) :
    ∃ later, machine.run world (List.replicate count .other) = some later ∧
      later.nextId = world.nextId + UInt64.ofNat count ∧ later.ids = world.ids ∧
      later.listener = world.listener ∧ later.server = world.server := by
  induction count generalizing world with
  | zero => exact ⟨world, rfl, (UInt64.add_zero _).symm, rfl, rfl, rfl⟩
  | succ count ih =>
      obtain ⟨later, ran, next, ids, listener, server⟩ :=
        ih { world with nextId := world.nextId + 1, otherIds := world.otherIds ++ [world.nextId] }
      refine ⟨later, ?_, ?_, ids, listener, server⟩
      · rw [List.replicate_succ, Machine.run_cons]
        exact ran
      · rw [next, UInt64.add_assoc, UInt64.ofNat_add, UInt64.add_comm 1]
        rfl

/-- After a session has been accepted, the other sessions of the process use up the ids, and then another
session is accepted. -/
def wrapped : List (Label ℕ) :=
  [.start .ok, .dispatch, .enter true, .accept (.connection 5)] ++
    (List.replicate (2 ^ 64 - 1) .other ++ [.accept (.connection 6)])

/-- A `start` that throws in a session handler, and a counter that wraps, each break the registry: after `stop`,
`sessions_` can hold an open session, and two sessions of a server can have the same id. -/
theorem registry_breaks :
    (∃ world : ServerWorld ℕ, machine.run {} abandoned = some world ∧ world.Between ∧
      (2, 1) ∈ world.server.sessions ∧ world.sinceStop = []) ∧
    ∃ world : ServerWorld ℕ, machine.run {} wrapped = some world ∧ world.ids = [1, 1] := by
  constructor
  · have ran : machine.run {} abandoned = some ((machine.run {} abandoned).get (by decide +kernel)) :=
      (Option.some_get _).symm
    exact ⟨_, ran, by decide +kernel, by decide +kernel, by decide +kernel⟩
  · obtain ⟨accepted, first, next, ids, listener, listening⟩ : ∃ accepted : ServerWorld ℕ,
        machine.run {} [.start .ok, .dispatch, .enter true, .accept (.connection 5)] = some accepted ∧
          accepted.nextId = 2 ∧ accepted.ids = [1] ∧ accepted.listener = .accepting ∧
          accepted.server.listening = true := ⟨_, rfl, rfl, rfl, rfl, rfl⟩
    obtain ⟨later, others, next', ids', listener', server'⟩ := run_others accepted (2 ^ 64 - 1)
    have ready : later.listener = .accepting ∧
        (later.server.listening = true ∨ AcceptResult.connection 6 = .failed) :=
      ⟨listener'.trans listener, Or.inl (server' ▸ listening)⟩
    have last : machine.run later [.accept (.connection 6)] = some (later.accept (.connection 6)) := by
      rw [Machine.run_singleton]
      exact machine_step.mpr ⟨[.listener], if_pos ready⟩
    refine ⟨later.accept (.connection 6), ?_, ?_⟩
    · rw [wrapped, Machine.run_append, first, Option.bind_some, Machine.run_append, others,
        Option.bind_some, last]
    · show later.ids ++ [later.nextId] = [1, 1]
      rw [ids', ids, next', next]
      decide

end ServerWorld

end Insist.MiniRpc
