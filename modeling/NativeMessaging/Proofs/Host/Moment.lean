import NativeMessaging.Proofs.Host.Loop

/-!
# Host — a run, moment by moment

A run that never stops gives no list of turns, and one that does says nothing of the loop between
them.  A *moment* of a run is the loop, and which of its two queues is to be served next; a *path*
is what happens from one moment to a later one.  Both queues are served in the same way, and what
holds of both is said of a *side*.

* `exists_take`: what serving a queue does to the loop.
* `Path.split`: the moments around a turn of a path.
* `exists_run_iff`: the runs that stop are the paths to a moment at which the loop stops.
-/

namespace NativeMessaging.Host

variable {κ ω : Type}

/-! ### The two queues -/

/-- The queue of the calls, and that of the messages. -/
inductive Side where
  | calls
  | inbound
  deriving DecidableEq

/-- The queue that is served in turn with this one. -/
def Side.other : Side → Side
  | .calls   => .inbound
  | .inbound => .calls

theorem Side.eq_other_of_ne {side side' : Side} (h : side ≠ side') : side' = side.other := by
  cases side <;> cases side' <;> first | rfl | exact absurd rfl h

/-- The queue from which an item comes. -/
def Item.side : Item κ → Side
  | .call _    => .calls
  | .message _ => .inbound

/-- What a turn put into a queue. -/
def Event.left (event : Event κ) : Side → List (Item κ)
  | .calls   => event.scheduled.map .call
  | .inbound => event.posted.map .message

/-- What was taken from a queue in some turns, in order. -/
def taken (side : Side) (events : List (Event κ)) : List (Item κ) :=
  (events.map Event.item).filter (·.side = side)

@[simp] theorem taken_nil (side : Side) : taken side ([] : List (Event κ)) = [] := rfl

@[simp] theorem taken_append (side : Side) (now later : List (Event κ)) :
    taken side (now ++ later) = taken side now ++ taken side later := by
  rw [taken, List.map_append, List.filter_append, taken, taken]

theorem taken_singleton (side : Side) (event : Event κ) :
    taken side [event] = if event.item.side = side then [event.item] else [] := by
  by_cases h : event.item.side = side <;> simp [taken, h]

/-- What is taken from the queue of the calls are the calls that are run. -/
theorem taken_calls (events : List (Event κ)) :
    taken .calls events = (called events).map .call := by
  induction events with
  | nil => rfl
  | cons event events ih =>
      obtain ⟨item, _, _, _⟩ := event
      cases item <;> simp_all [taken, called, Item.side, Item.call?]

/-- What is taken from the other queue are the messages that are dispatched. -/
theorem taken_inbound (events : List (Event κ)) :
    taken .inbound events = (dispatched events).map .message := by
  induction events with
  | nil => rfl
  | cons event events ih =>
      obtain ⟨item, _, _, _⟩ := event
      cases item <;> simp_all [taken, dispatched, Item.side, Item.message?]

namespace Loop

/-- A queue. -/
def queue (loop : Loop κ ω) : Side → List (Item κ)
  | .calls   => loop.calls.map .call
  | .inbound => loop.inbound.map .message

variable (handlers : Handlers κ ω)

/-- Serves a queue once. -/
def take (loop : Loop κ ω) : Side → List (Event κ) × Loop κ ω
  | .calls   => loop.takeCall handlers
  | .inbound => loop.takeMessage handlers

theorem take_nil {loop : Loop κ ω} {side : Side} (h : loop.queue side = []) :
    loop.take handlers side = ([], loop) := by
  cases side with
  | calls =>
      have hcalls : loop.calls = [] := List.map_eq_nil_iff.mp h
      rw [take, takeCall, hcalls]
  | inbound =>
      have hinbound : loop.inbound = [] := List.map_eq_nil_iff.mp h
      rw [take, takeMessage, hinbound]

/-- **Serving a queue.**  The first item has its turn; what the turn leaves goes to the ends of both
queues; and a request to stop, of this turn or of an earlier one, stays. -/
theorem exists_take {loop : Loop κ ω} {side : Side} {item : Item κ} {rest : List (Item κ)}
    (h : loop.queue side = item :: rest) :
    ∃ event loop', loop.take handlers side = ([event], loop') ∧ event.item = item ∧
      loop'.queue side = rest ++ event.left side ∧
      loop'.queue side.other = loop.queue side.other ++ event.left side.other ∧
      loop'.exitRequested = (loop.exitRequested || event.exitRequested) := by
  obtain ⟨inbound, calls, exit, world⟩ := loop
  cases side with
  | calls =>
      obtain ⟨c, cs, rfl, rfl, rfl⟩ := List.map_eq_cons_iff.mp h
      exact ⟨_, _, rfl, rfl, List.map_append, List.map_append, rfl⟩
  | inbound =>
      obtain ⟨m, ms, rfl, rfl, rfl⟩ := List.map_eq_cons_iff.mp h
      exact ⟨_, _, rfl, rfl, List.map_append, List.map_append, rfl⟩

/-- What is taken from a queue is of its side. -/
theorem side_of_queue {loop : Loop κ ω} {side : Side} {item : Item κ}
    (h : item ∈ loop.queue side) : item.side = side := by
  cases side with
  | calls =>
      obtain ⟨c, -, rfl⟩ := List.mem_map.mp h
      rfl
  | inbound =>
      obtain ⟨m, -, rfl⟩ := List.mem_map.mp h
      rfl

end Loop

/-! ### Moments -/

/-- A loop in a run, and the queue that it serves next.  It serves the calls first in a round, and
looks before that whether it has been asked to stop. -/
structure Moment (κ ω : Type) where
  loop : Loop κ ω
  next : Side

namespace Moment

/-- Before a round. -/
def start (loop : Loop κ ω) : Moment κ ω := ⟨loop, .calls⟩

/-- A round begins only where the loop has not been asked to stop and has something to do. -/
def Goes (moment : Moment κ ω) : Prop :=
  moment.next = .calls → moment.loop.exitRequested = false ∧ moment.loop.isIdle = false

/-- The moment behind the next service, and the turn that was given in it, if any. -/
def serve (handlers : Handlers κ ω) (moment : Moment κ ω) : List (Event κ) × Moment κ ω :=
  let (events, loop) := moment.loop.take handlers moment.next
  (events, ⟨loop, moment.next.other⟩)

/-- What happens in a run from one moment to a later one. -/
inductive Path (handlers : Handlers κ ω) : Moment κ ω → List (Event κ) → Moment κ ω → Prop where
  | refl (moment : Moment κ ω) : Path handlers moment [] moment
  | more {moment final : Moment κ ω} {later : List (Event κ)} (h : moment.Goes)
      (t : Path handlers (moment.serve handlers).2 later final) :
      Path handlers moment ((moment.serve handlers).1 ++ later) final

variable {handlers : Handlers κ ω}

theorem serve_nil {moment : Moment κ ω} (h : moment.loop.queue moment.next = []) :
    moment.serve handlers = ([], ⟨moment.loop, moment.next.other⟩) := by
  rw [serve, Loop.take_nil handlers h]

/-- What the next service does where there is something to serve. -/
theorem exists_serve (handlers : Handlers κ ω) {moment : Moment κ ω} {item : Item κ}
    {rest : List (Item κ)} (h : moment.loop.queue moment.next = item :: rest) :
    ∃ event loop, moment.serve handlers = ([event], ⟨loop, moment.next.other⟩) ∧
      event.item = item ∧ loop.queue moment.next = rest ++ event.left moment.next ∧
      loop.queue moment.next.other =
        moment.loop.queue moment.next.other ++ event.left moment.next.other ∧
      loop.exitRequested = (moment.loop.exitRequested || event.exitRequested) := by
  obtain ⟨event, loop, htake, hspec⟩ := Loop.exists_take handlers h
  exact ⟨event, loop, by rw [serve, htake], hspec⟩

/-- A service gives one turn where its queue has an item, and none otherwise. -/
theorem serve_events (handlers : Handlers κ ω) (moment : Moment κ ω) :
    moment.loop.queue moment.next = [] ∧ (moment.serve handlers).1 = [] ∨
      ∃ event, (moment.serve handlers).1 = [event] ∧ event.item.side = moment.next := by
  cases h : moment.loop.queue moment.next with
  | nil => exact .inl ⟨rfl, by rw [serve_nil h]⟩
  | cons item rest =>
      obtain ⟨event, loop, hserve, hitem, -⟩ := exists_serve handlers h
      refine .inr ⟨event, by rw [hserve], ?_⟩
      rw [hitem]
      exact Loop.side_of_queue (h ▸ List.mem_cons_self ..)

theorem side_of_serve {moment : Moment κ ω} {event : Event κ}
    (h : (moment.serve handlers).1 = [event]) : event.item.side = moment.next := by
  rcases serve_events handlers moment with ⟨-, hnone⟩ | ⟨event', hevent, hside⟩
  · rw [hnone] at h
    cases h
  · obtain rfl := List.singleton_inj.mp (hevent.symm.trans h)
    exact hside

/-- A service takes from the front of a queue, and puts what its turn leaves behind what it
found. -/
theorem exists_found (handlers : Handlers κ ω) (moment : Moment κ ω) (side : Side) :
    ∃ found, moment.loop.queue side = taken side (moment.serve handlers).1 ++ found ∧
      (moment.serve handlers).2.loop.queue side =
        found ++ (moment.serve handlers).1.flatMap (·.left side) := by
  cases hqueue : moment.loop.queue moment.next with
  | nil =>
      rw [serve_nil hqueue]
      exact ⟨_, rfl, (List.append_nil _).symm⟩
  | cons item rest =>
      obtain ⟨event, loop, hserve, hitem, hnext, hother, -⟩ :=
        exists_serve handlers hqueue
      have hside : event.item.side = moment.next := by
        rw [hitem]
        exact Loop.side_of_queue (hqueue ▸ List.mem_cons_self ..)
      rw [hserve, taken_singleton, hside, List.flatMap_singleton]
      by_cases hs : moment.next = side
      · subst hs
        exact ⟨rest, by rw [if_pos rfl, hqueue, hitem]; rfl, hnext⟩
      · obtain rfl : side = moment.next.other := Side.eq_other_of_ne hs
        exact ⟨_, by rw [if_neg hs, List.nil_append], hother⟩

theorem Path.conserves {moment final : Moment κ ω} {events : List (Event κ)}
    (h : Path handlers moment events final) :
    Loop.Conserves moment.loop events final.loop := by
  induction h with
  | refl => exact .refl _
  | @more moment _ _ _ _ ih =>
      obtain ⟨loop, next⟩ := moment
      cases next with
      | calls => exact (Loop.conserves_takeCall loop).append ih
      | inbound => exact (Loop.conserves_takeMessage loop).append ih

/-- What was taken from a queue and what is left in it are what was in it and what was put into
it. -/
theorem Path.taken_append_queue {moment final : Moment κ ω} {events : List (Event κ)}
    (h : Path handlers moment events final) (side : Side) :
    taken side events ++ final.loop.queue side =
      moment.loop.queue side ++ events.flatMap (·.left side) := by
  cases side with
  | calls =>
      have hcalls := congrArg (List.map Item.call) h.conserves.calls
      rw [List.map_append, List.map_append, ← taken_calls, scheduled, List.map_flatMap] at hcalls
      exact hcalls
  | inbound =>
      have hinbound := congrArg (List.map (Item.message : Message → Item κ)) h.conserves.inbound
      rw [List.map_append, List.map_append, ← taken_inbound, posted, List.map_flatMap] at hinbound
      exact hinbound

/-- **The moments around a turn.** -/
theorem Path.split {moment final : Moment κ ω} {before later : List (Event κ)} {event : Event κ}
    (h : Path handlers moment (before ++ event :: later) final) :
    ∃ found : Moment κ ω, Path handlers moment before found ∧ found.Goes ∧
      (found.serve handlers).1 = [event] ∧
      Path handlers (found.serve handlers).2 later final := by
  generalize hevents : before ++ event :: later = events at h
  induction h generalizing before with
  | refl => cases before <;> cases hevents
  | @more moment final rest hgoes t ih =>
      rcases serve_events handlers moment with ⟨-, hnone⟩ | ⟨first, hfirst, -⟩
      · rw [hnone] at hevents
        obtain ⟨found, hbefore, hfound⟩ := ih hevents
        refine ⟨found, ?_, hfound⟩
        have hpath := Path.more hgoes hbefore
        rwa [hnone] at hpath
      · rw [hfirst] at hevents
        cases before with
        | nil =>
            obtain ⟨rfl, rfl⟩ := List.cons.inj hevents
            exact ⟨moment, .refl _, hgoes, hfirst, t⟩
        | cons first' before =>
            obtain ⟨rfl, hrest⟩ := List.cons.inj hevents
            obtain ⟨found, hbefore, hfound⟩ := ih hrest
            refine ⟨found, ?_, hfound⟩
            have hpath := Path.more hgoes hbefore
            rwa [hfirst] at hpath

end Moment

/-! ### Runs that stop -/

namespace Loop

variable {handlers : Handlers κ ω} {loop final : Loop κ ω} {events : List (Event κ)}

theorem run_of_exitRequested (h : loop.exitRequested = true) (rounds : Nat) :
    loop.run handlers rounds = some ([], loop) := by
  rw [run.eq_def]
  exact if_pos h

theorem run_of_isIdle (h : loop.isIdle = true) (rounds : Nat) :
    loop.run handlers rounds = none := by
  have hexit : ¬ loop.exitRequested = true := by
    intro hexit
    simp [isIdle, hexit] at h
  rw [run.eq_def]
  dsimp only
  rw [if_neg hexit, if_pos h]

theorem run_zero (hexit : loop.exitRequested = false) : loop.run handlers 0 = none := by
  rw [run.eq_def]
  simp [hexit]

/-- A run that goes on begins with a round. -/
theorem run_succ (hexit : loop.exitRequested = false) (hidle : loop.isIdle = false)
    (rounds : Nat) :
    loop.run handlers (rounds + 1) =
      ((loop.round handlers).2.run handlers rounds).map
        fun rest => ((loop.round handlers).1 ++ rest.1, rest.2) := by
  rw [run.eq_def]
  dsimp only
  rw [if_neg (by simp [hexit]), if_neg (by simp [hidle])]
  cases (loop.round handlers).2.run handlers rounds <;> rfl

/-- A round serves the calls and then the messages. -/
theorem round_eq (handlers : Handlers κ ω) (loop : Loop κ ω) :
    let called := (Moment.start loop).serve handlers
    let dispatched := called.2.serve handlers
    dispatched.2 = .start (loop.round handlers).2 ∧
      (loop.round handlers).1 = called.1 ++ dispatched.1 :=
  ⟨rfl, rfl⟩

/-- What a run still has to do from a moment: rounds, or first the rest of one. -/
def RunsFrom (handlers : Handlers κ ω) (moment : Moment κ ω) (events : List (Event κ))
    (final : Loop κ ω) : Prop :=
  match moment.next with
  | .calls   => ∃ rounds, moment.loop.run handlers rounds = some (events, final)
  | .inbound => ∃ rounds later,
      (moment.serve handlers).2.loop.run handlers rounds = some (later, final) ∧
        events = (moment.serve handlers).1 ++ later

theorem runsFrom_of_path {moment : Moment κ ω} {events : List (Event κ)}
    (h : Moment.Path handlers moment events (.start final)) (hexit : final.exitRequested = true) :
    RunsFrom handlers moment events final := by
  generalize hend : Moment.start final = stop at h
  induction h with
  | refl =>
      subst hend
      exact ⟨0, run_of_exitRequested hexit 0⟩
  | @more moment stop later hgoes t ih =>
      have hlater := ih hend
      obtain ⟨loop, next⟩ := moment
      cases next with
      | calls =>
          -- behind the calls come the messages of the same round
          obtain ⟨hgo, hbusy⟩ := hgoes rfl
          obtain ⟨rounds, rest, hrun, rfl⟩ := hlater
          have hrest : (loop.round handlers).2.run handlers rounds = some (rest, final) := hrun
          refine ⟨rounds + 1, ?_⟩
          rw [run_succ hgo hbusy]
          dsimp only
          rw [hrest, Option.map_some, (round_eq handlers loop).2, List.append_assoc]
          rfl
      | inbound =>
          obtain ⟨rounds, hrun⟩ := hlater
          exact ⟨rounds, later, hrun, rfl⟩

/-- **The runs that stop.**  A run is a path from before its first round to a moment before a round
at which the loop has been asked to stop, and every such path is a run. -/
theorem exists_run_iff :
    (∃ rounds, loop.run handlers rounds = some (events, final)) ↔
      Moment.Path handlers (.start loop) events (.start final) ∧ final.exitRequested = true := by
  constructor
  · rintro ⟨rounds, h⟩
    induction rounds generalizing loop events with
    | zero =>
        by_cases hexit : loop.exitRequested = true
        · rw [run_of_exitRequested hexit] at h
          obtain ⟨rfl, rfl⟩ := Prod.mk.inj (Option.some.inj h)
          exact ⟨.refl _, hexit⟩
        · rw [run_zero (by simpa using hexit)] at h
          cases h
    | succ rounds ih =>
        by_cases hexit : loop.exitRequested = true
        · rw [run_of_exitRequested hexit] at h
          obtain ⟨rfl, rfl⟩ := Prod.mk.inj (Option.some.inj h)
          exact ⟨.refl _, hexit⟩
        by_cases hidle : loop.isIdle = true
        · rw [run_of_isIdle hidle] at h
          cases h
        · rw [Bool.not_eq_true] at hexit hidle
          rw [run_succ hexit hidle] at h
          obtain ⟨⟨later, final'⟩, hlater, heq⟩ := Option.map_eq_some_iff.mp h
          obtain ⟨rfl, rfl⟩ := Prod.mk.inj heq
          obtain ⟨hpath, hfinal⟩ := ih hlater
          refine ⟨?_, hfinal⟩
          obtain ⟨hround, hevents⟩ := round_eq handlers loop
          rw [hevents, List.append_assoc]
          exact .more (fun _ => ⟨hexit, hidle⟩) (.more nofun hpath)
  · rintro ⟨hpath, hexit⟩
    exact runsFrom_of_path hpath hexit

end Loop

end NativeMessaging.Host
