import NativeMessaging.Host.Bridge
import NativeMessaging.Proofs.Host.Deed
import NativeMessaging.Proofs.Host.Moment

/-!
# Host — a request to stop is final

The loop looks before every round whether it has been asked to stop, and nothing takes a request
back.  So behind the turn that asks there is at most the message of the same round.

A turn is *made* of the operations that turns have (`Turn.Made`) when it is composed of them; every
operation of the host is (`Bridge.made_dispatch`, `Facilities.made_pump`), where its plugins are.

* `Turn.Made.keeps_exit`: what is made of the operations keeps a request.
* `Moment.Path.of_exitRequested`: what a run still does when it has been asked to stop.
* `Loop.Later.of_exitRequested`: what is done later with a loop that has been asked to stop.
* `Loop.exit_is_final`: all of it.
-/

namespace NativeMessaging.Host

variable {κ ω π σ α : Type}

/-! ### Turns -/

namespace Turn

/-- Turns that are made of the operations that turns have. -/
inductive Made {κ : Type} : {ω α : Type} → Turn κ ω α → Prop where
  | pure {ω α : Type} (a : α) : Made (Pure.pure a : Turn κ ω α)
  | bind {ω α β : Type} {turn : Turn κ ω α} {next : α → Turn κ ω β} (h : Made turn)
      (hnext : ∀ a, Made (next a)) : Made (turn >>= next)
  | panic {ω α : Type} : Made (Turn.panic : Turn κ ω α)
  | post {ω : Type} (m : Message) : Made (Turn.post m : Turn κ ω Unit)
  | schedule {ω : Type} (c : κ) : Made (Turn.schedule c : Turn κ ω Unit)
  | requestExit {ω : Type} : Made (Turn.requestExit : Turn κ ω Unit)
  | exitRequested {ω : Type} : Made (Turn.exitRequested : Turn κ ω Bool)
  | step {ω α : Type} (f : ω → Except Panic α × ω) : Made (Turn.step f : Turn κ ω α)
  | within {ω ε α : Type} (get : ω → ε) (set : ε → ω → ω) {turn : Turn κ ε α} (h : Made turn) :
      Made (turn.within get set)

theorem Made.world : Made (Turn.world : Turn κ ω ω) := .step fun w => (.ok w, w)

theorem Made.modifyWorld (f : ω → ω) : Made (Turn.modifyWorld f : Turn κ ω Unit) :=
  .step fun w => (.ok (), f w)

/-- **No operation takes a request back.** -/
theorem Made.keeps_exit {turn : Turn κ ω α} (h : turn.Made) :
    turn.Keeps fun scene => scene.exitRequested = true := by
  induction h with
  | pure | panic | post | schedule | exitRequested | step => exact fun _ hexit => hexit
  | requestExit => exact fun _ _ => rfl
  | bind _ _ ih ihnext => exact ih.bind ihnext
  | within get set _ ih => exact fun _ hexit => ih _ hexit

end Turn

/-! ### The operations of the host -/

namespace Facilities

open Turn (Made)

theorem made_messageIn (raw : String) : Made (messageIn raw : Turn κ (Facilities σ) Unit) := by
  refine .bind (.step _) fun message => ?_
  cases message with
  | none => exact .pure ()
  | some m => exact .post m

theorem made_writing (write : Outbound → Written Frame.Error × Outbound) :
    Made (writing write : Turn κ (Facilities σ) _) := .step _

theorem made_scheduleFor (call : κ) : Made (scheduleFor call : Turn κ (Facilities σ) _) := by
  refine .bind .exitRequested fun asked => ?_
  cases asked with
  | true => exact .pure _
  | false => exact .bind (.schedule call) fun _ => .pure _

theorem made_takeFrames (limit rounds taken : Nat) (source : Frame.Source) :
    Made (takeFrames limit rounds taken source : Turn κ (Facilities σ) Nat) := by
  induction rounds generalizing taken source with
  | zero => exact .pure _
  | succ rounds ih =>
      rw [takeFrames]
      split
      · next raw source _ => exact .bind (made_messageIn raw) fun _ => ih _ source
      · exact .pure _

theorem made_pump (limit : Nat) (source : Frame.Source) :
    Made (pump limit source : Turn κ (Facilities σ) Nat) :=
  .bind (made_takeFrames limit _ 0 source) fun _ => .bind .requestExit fun _ => .pure _

end Facilities

/-- Plugins whose turns are made of the operations. -/
structure Plugins.Made (plugins : Plugins κ π σ) : Prop where
  load (mimetype : String) : (plugins.load mimetype).Made
  start (plugin : π) : (plugins.start plugin).Made
  onCall (direction : Direction) (plugin : π) (colony : ColonyId) (id : MessageId)
    (payload : String) : (plugins.onCall direction plugin colony id payload).Made
  shutdown (plugin : π) : (plugins.shutdown plugin).Made

namespace Bridge

open Turn (Made)

variable {plugins : Plugins κ π σ}

theorem made_offering {turn : Turn κ (Facilities σ) α} (h : turn.Made) :
    Made (offering turn : Turn κ (World π σ) α) := .within _ _ h

theorem made_ack (a : Ack) : Made (ack a : Turn κ (World π σ) Unit) :=
  .bind (made_offering (Facilities.made_writing _)) fun _ => .pure ()

theorem made_shutdown (h : plugins.Made) :
    Made (shutdown plugins : Turn κ (World π σ) Unit) := by
  refine .bind .world fun world => ?_
  cases world.bridge.plugin with
  | none => exact .modifyWorld _
  | some plugin =>
      exact .bind (.modifyWorld _) fun _ =>
        .bind (made_offering (h.shutdown plugin)) fun _ => .modifyWorld _

theorem made_load (h : plugins.Made) (mimetype : String) : (load plugins mimetype).Made := by
  refine .bind (h.load mimetype) fun loaded => ?_
  cases loaded with
  | error e => exact .pure _
  | ok plugin =>
      refine .bind (h.start plugin) fun started => ?_
      cases started with
      | error e => exact .pure _
      | ok _ => exact .pure _

theorem made_install (h : plugins.Made) (mimetype : String) :
    Made (install plugins mimetype : Turn κ (World π σ) Unit) := by
  refine .bind (made_offering (made_load h mimetype)) fun loaded => ?_
  cases loaded with
  | error e => exact .bind (made_ack _) fun _ => .modifyWorld _
  | ok plugin =>
      exact .bind .world fun _ => .bind (made_ack _) fun _ =>
        .bind (.modifyWorld _) fun _ => .modifyWorld _

/-- What the bridge does with a message is made of the operations, where its plugins are. -/
theorem made_dispatch (h : plugins.Made) (message : Message) :
    Made (dispatch plugins message : Turn κ (World π σ) Unit) := by
  have hforward (direction : Direction) (colony : ColonyId) (id : MessageId) (payload : String) :
      Made (forward plugins direction colony id payload : Turn κ (World π σ) Unit) := by
    refine .bind .world fun world => ?_
    cases world.bridge.plugin with
    | none => exact made_ack _
    | some plugin =>
        exact .bind (made_offering (h.onCall direction plugin colony id payload)) fun _ => .pure ()
  cases message with
  | create mimetype =>
      rw [dispatch, create_eq]
      refine .bind .world fun world => ?_
      split
      · exact .bind (made_shutdown h) fun _ => made_install h mimetype
      · exact made_install h mimetype
  | command colony id payload => exact hforward .command colony id payload
  | response colony id payload => exact hforward .response colony id payload
  | error description => exact made_ack _

end Bridge

/-! ### Runs -/

namespace Moment

variable {handlers : Handlers κ ω}

theorem serve_exitRequested (handlers : Handlers κ ω) (moment : Moment κ ω) :
    (moment.serve handlers).2.loop.exitRequested =
      (moment.loop.exitRequested || (moment.serve handlers).1.any Event.exitRequested) := by
  cases hqueue : moment.loop.queue moment.next with
  | nil => rw [serve_nil hqueue, List.any_nil, Bool.or_false]
  | cons item rest =>
      obtain ⟨event, loop, hserve, -, -, -, hexit⟩ := exists_serve handlers hqueue
      rw [hserve, hexit, List.any_cons, List.any_nil, Bool.or_false]

/-- **What a run still does when it has been asked to stop.**  Before a round, nothing; within one,
at most the message of the round. -/
theorem Path.of_exitRequested {moment point : Moment κ ω} {events : List (Event κ)}
    (h : Path handlers moment events point) (hexit : moment.loop.exitRequested = true) :
    point.loop.exitRequested = true ∧
      match moment.next with
      | .calls   => events = []
      | .inbound => events = [] ∨ ∃ last, events = [last] ∧ last.item.side = .inbound := by
  induction h with
  | refl moment =>
      refine ⟨hexit, ?_⟩
      cases moment.next with
      | calls => rfl
      | inbound => exact .inl rfl
  | @more moment _ later hgoes _ ih =>
      have hafter : (moment.serve handlers).2.loop.exitRequested = true := by
        rw [serve_exitRequested, hexit, Bool.true_or]
      obtain ⟨hpoint, hlater⟩ := ih hafter
      cases hnext : moment.next with
      | calls =>
          -- a round does not begin
          rw [(hgoes hnext).1] at hexit
          cases hexit
      | inbound =>
          have hbehind : (moment.serve handlers).2.next = .calls := by
            change moment.next.other = .calls
            rw [hnext]
            rfl
          rw [hbehind] at hlater
          dsimp only at hlater ⊢
          rw [hlater, List.append_nil]
          rcases moment.serve_events handlers with ⟨-, hnone⟩ | ⟨event, hevent, hside⟩
          · exact ⟨hpoint, .inl hnone⟩
          · exact ⟨hpoint, .inr ⟨event, hevent, hside.trans hnext⟩⟩

end Moment

namespace Loop

/-- What is done with a loop later, from outside and in runs, and the turns that are given in those
runs. -/
inductive Later : Loop κ ω → List (Event κ) → Loop κ ω → Prop where
  | refl (loop : Loop κ ω) : Later loop [] loop
  | turn {loop final : Loop κ ω} {events : List (Event κ)} {α : Type} (turn : Turn κ ω α)
      (t : Later (loop.perform turn).2 events final) : Later loop events final
  | run {loop next final : Loop κ ω} {now later : List (Event κ)} (handlers : Handlers κ ω)
      {rounds : Nat} (h : loop.run handlers rounds = some (now, next))
      (t : Later next later final) : Later loop (now ++ later) final

/-- **What is done later with a loop that has been asked to stop.**  It keeps the request, and no
run gives a turn. -/
theorem Later.of_exitRequested {loop final : Loop κ ω} {events : List (Event κ)}
    (h : Later loop events final) (hexit : loop.exitRequested = true) :
    events = [] ∧ final.exitRequested = true := by
  induction h with
  | refl => exact ⟨rfl, hexit⟩
  | @turn loop _ _ _ turn _ ih =>
      refine ih ?_
      change (loop.exitRequested || _) = true
      rw [hexit, Bool.true_or]
  | run handlers h _ ih =>
      rw [run_of_exitRequested hexit] at h
      obtain ⟨rfl, rfl⟩ := Prod.mk.inj (Option.some.inj h)
      exact ih hexit

/-- Where the loop has been asked to stop, a plugin cannot schedule. -/
theorem on_scheduleFor (call : κ) {scene : Scene κ (Facilities σ)}
    (hexit : scene.exitRequested = true) :
    (Facilities.scheduleFor call).on scene = (.ok (.error .loopClosed), scene) := by
  have hasked : (Turn.exitRequested : Turn κ (Facilities σ) Bool).on scene = (.ok true, scene) := by
    rw [← hexit]
    rfl
  rw [Facilities.scheduleFor, Turn.on_bind, hasked]
  rfl

/-- **A request to stop is final.**  A run returns only where the loop has been asked to stop.
Behind the turn that asks, a run gives at most one turn more, that of the message of the round, and
only where a call asked.  No operation takes a request back, nor does anything that stands in a turn
behind the request.  From the request on, a plugin cannot schedule.  And whatever is done later with
a loop that has been asked to stop, no run of it gives a turn or changes it. -/
theorem exit_is_final (handlers : Handlers κ (World π σ)) (loop : Loop κ (World π σ)) :
    (∀ rounds events final, loop.run handlers rounds = some (events, final) →
        final.exitRequested = true) ∧
      (∀ before event later point,
        Moment.Path handlers (.start loop) (before ++ event :: later) point →
        event.exitRequested = true →
        point.loop.exitRequested = true ∧
          (later = [] ∨ event.item.side = .calls ∧
            ∃ last, later = [last] ∧ last.item.side = .inbound)) ∧
      (∀ {α : Type} (turn : Turn κ (World π σ) α), turn.Made → ∀ scene,
        (scene.exitRequested = true → (turn.on scene).2.exitRequested = true) ∧
          ((Turn.requestExit >>= fun _ => turn).on scene).2.exitRequested = true) ∧
      (∀ call scene, scene.exitRequested = true →
        (Bridge.offering (Facilities.scheduleFor call) : Turn κ (World π σ) _).on scene =
          (.ok (.error .loopClosed), scene)) ∧
      (loop.exitRequested = true → ∀ events final, Later loop events final →
        events = [] ∧ final.exitRequested = true ∧
          ∀ (handlers : Handlers κ (World π σ)) rounds,
            final.run handlers rounds = some ([], final) ∧
              Stats.ofEvents ([] : List (Event κ)) = ⟨0, 0⟩) := by
  refine ⟨fun rounds events final hrun => ?_, fun before event later point hpath hasked => ?_,
    fun turn hmade scene => ⟨hmade.keeps_exit scene, ?_⟩, fun call scene hexit => ?_,
    fun hexit events final hlater => ?_⟩
  · exact (exists_run_iff.mp ⟨rounds, hrun⟩).2
  · obtain ⟨moment, -, -, hevent, hlater⟩ := hpath.split
    have hafter : (moment.serve handlers).2.loop.exitRequested = true := by
      rw [Moment.serve_exitRequested, hevent, List.any_cons, hasked, Bool.true_or, Bool.or_true]
    have hside : event.item.side = moment.next := Moment.side_of_serve hevent
    have hbehind : (moment.serve handlers).2.next = moment.next.other := rfl
    obtain ⟨hpoint, hrest⟩ := hlater.of_exitRequested hafter
    rw [hbehind] at hrest
    refine ⟨hpoint, ?_⟩
    cases hnext : moment.next with
    | calls =>
        rw [hnext] at hside hrest
        exact hrest.imp_right fun hlast => ⟨hside, hlast⟩
    | inbound =>
        rw [hnext] at hrest
        exact .inl hrest
  · rw [Turn.on_bind]
    exact hmade.keeps_exit _ rfl
  · have hoffered : (Bridge.offered scene).exitRequested = true := hexit
    rw [on_offering, on_scheduleFor call hoffered]
    rfl
  · obtain ⟨hnone, hfinal⟩ := hlater.of_exitRequested hexit
    exact ⟨hnone, hfinal, fun handlers rounds => ⟨run_of_exitRequested hfinal rounds, rfl⟩⟩

/-- A plugin that schedules in every call that it gets. -/
def eager : Plugins Unit Unit Unit where
  load mimetype := return .error (.load mimetype "none")
  start _ := return .ok ()
  name _ _ := "eager"
  onCall _ _ _ _ _ := do
    let _ ← Facilities.scheduleFor ()
    return .ok ()
  shutdown _ := return ()

theorem made_eager : eager.Made where
  load _ := .pure _
  start _ := .pure _
  onCall _ _ _ _ _ := .bind (Facilities.made_scheduleFor ()) fun _ => .pure _
  shutdown _ := .pure _

/-- Calls that ask to stop, and that plugin. -/
def resigning : Handlers Unit (World Unit Unit) where
  call _ := Turn.requestExit
  dispatch := Bridge.dispatch eager

/-- The first of two calls asks to stop, the message of its round still gets to the plugin, which
schedules in vain, and the second call stays; frames that arrive later change nothing of that. -/
theorem exit_is_final_resigning :
    let message : Message := .command .topLevel ⟨1⟩ "x"
    let world : World Unit Unit :=
      ⟨⟨some (), .active "eager" "a"⟩, .empty, ⟨.unlimited, .largest⟩, ()⟩
    let loop : Loop Unit (World Unit Unit) := ⟨[message, message], [(), ()], false, world⟩
    let asks : Event Unit := ⟨.call (), [], [], true⟩
    let last : Event Unit := ⟨.message message, [], [], true⟩
    let final : Loop Unit (World Unit Unit) := ⟨[message], [()], true, world⟩
    let pump (source : Frame.Source) : Turn Unit (World Unit Unit) Nat :=
      Bridge.offering (Facilities.pump 64 source)
    loop.run resigning 1 = some ([asks, last], final) ∧ final.exitRequested = true ∧
      (Moment.Path resigning (.start loop) ([] ++ asks :: [last]) (.start final) ∧
        ([last] = [] ∨ asks.item.side = .calls ∧
          ∃ last', [last] = [last'] ∧ last'.item.side = .inbound)) ∧
      (∀ source, (pump source).Made ∧ ((pump source).on final.scene).2.exitRequested = true) ∧
      (Bridge.dispatch eager message : Turn Unit (World Unit Unit) Unit).Made ∧
      (Bridge.offering (Facilities.scheduleFor ()) : Turn Unit (World Unit Unit) _).on final.scene =
        (.ok (.error .loopClosed), final.scene) ∧
      ∀ source, Later final [] (final.perform (pump source)).2 ∧
        (final.perform (pump source)).2.exitRequested = true ∧
        (final.perform (pump source)).2.run resigning 7 =
          some ([], (final.perform (pump source)).2) := by
  intro message world loop asks last final pump
  have hrun : loop.run resigning 1 = some ([asks, last], final) := rfl
  have hpath := (exists_run_iff.mp ⟨1, hrun⟩).1
  have hpump (source : Frame.Source) : (pump source).Made :=
    Bridge.made_offering (Facilities.made_pump 64 source)
  obtain ⟨hreturns, hasks, hkeeps, hrefuses, -⟩ := exit_is_final resigning loop
  obtain ⟨-, -, -, -, hlater⟩ := exit_is_final resigning final
  have hfinal : final.exitRequested = true := hreturns 1 _ _ hrun
  refine ⟨hrun, hfinal, ⟨hpath, (hasks [] asks [last] _ hpath rfl).2⟩, fun source => ?_,
    Bridge.made_dispatch made_eager message, hrefuses () final.scene hfinal, fun source => ?_⟩
  · exact ⟨hpump source, (hkeeps (pump source) (hpump source) final.scene).1 hfinal⟩
  · -- frames arrive, and then the loop runs again
    have hpumped : Later final [] (final.perform (pump source)).2 := .turn _ (.refl _)
    obtain ⟨-, hexit, hruns⟩ := hlater hfinal _ _ hpumped
    exact ⟨hpumped, hexit, (hruns resigning 7).1⟩

end Loop

end NativeMessaging.Host
