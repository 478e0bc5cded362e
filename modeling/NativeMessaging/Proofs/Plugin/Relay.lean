import NativeMessaging.Host.Session
import NativeMessaging.Proofs.Host.Exit
import NativeMessaging.Proofs.Plugin.Call
import NativeMessaging.Proofs.Plugin.Lines
import NativeMessaging.Rehearsal.Trial

/-!
# Plugin — what a plugin prints is relayed once and in order

A host answers each call that it is offered (`Relay.answers`).  It looks at the output of a plugin
again and again, and between two looks the process goes on writing (`Running.Watched`).

* `Relay.answers_append`: what is offered later goes on where the answers before it stopped.
* `Running.GoesOn.asked_prefix`: a process that goes on takes back no call.
* `Running.Follows.look_eq`: after a look, all answers together are the answers to all calls that
  the output asks for so far, however the looks cut them.
* `Rehearsal.Trial.relay_eq`, `Host.Service.on_relay`: both hosts relay by such looks.
* `Running.relay_output`: a plugin that greets has its output relayed from behind the greeting on.
* `Running.relay_stopped`: when the host is asked to stop, it relays what it has accepted by then.
-/

namespace NativeMessaging

namespace Relay

/-! ### Answers -/

/-- What a host with that much room answers to calls: they are offered one by one, and nothing is
offered behind the first that is refused. -/
def answers : (room : Option Nat) → List Call → List (Call × Bool)
  | _,            []      => []
  | none,         c :: cs => (c, true) :: answers none cs
  | some 0,       c :: _  => [(c, false)]
  | some (n + 1), c :: cs => (c, true) :: answers (some n) cs

/-- The calls that were accepted. -/
def accepted (log : List (Call × Bool)) : List Call :=
  (log.filter fun answer => answer.2).map Prod.fst

/-- Whether a call was refused. -/
def refused (log : List (Call × Bool)) : Bool := log.any fun answer => !answer.2

/-- The room that accepted calls leave. -/
def roomAfter (limit : Option Nat) (log : List (Call × Bool)) : Option Nat :=
  limit.map fun n => n - (accepted log).length

@[simp] theorem accepted_nil : accepted [] = [] := rfl

@[simp] theorem accepted_cons_true (c : Call) (log : List (Call × Bool)) :
    accepted ((c, true) :: log) = c :: accepted log := rfl

@[simp] theorem accepted_cons_false (c : Call) (log : List (Call × Bool)) :
    accepted ((c, false) :: log) = accepted log := rfl

@[simp] theorem refused_nil : refused [] = false := rfl

@[simp] theorem refused_cons_true (c : Call) (log : List (Call × Bool)) :
    refused ((c, true) :: log) = refused log := rfl

@[simp] theorem refused_cons_false (c : Call) (log : List (Call × Bool)) :
    refused ((c, false) :: log) = true := rfl

theorem accepted_append (log later : List (Call × Bool)) :
    accepted (log ++ later) = accepted log ++ accepted later := by
  rw [accepted, List.filter_append, List.map_append, accepted, accepted]

theorem refused_append (log later : List (Call × Bool)) :
    refused (log ++ later) = (refused log || refused later) := List.any_append

/-- A host accepts the first calls, as many as it has room for. -/
theorem accepted_answers (limit : Option Nat) (calls : List Call) :
    accepted (answers limit calls) = match limit with
      | none   => calls
      | some n => calls.take n := by
  induction calls generalizing limit with
  | nil => cases limit <;> simp [answers]
  | cons c calls ih =>
      cases limit with
      | none => simp [answers, ih]
      | some n => cases n <;> simp [answers, ih]

/-- It refuses one where there are more. -/
theorem refused_answers (limit : Option Nat) (calls : List Call) :
    refused (answers limit calls) = match limit with
      | none   => false
      | some n => decide (n < calls.length) := by
  induction calls generalizing limit with
  | nil => cases limit <;> simp [answers]
  | cons c calls ih =>
      cases limit with
      | none => simp [answers, ih]
      | some n => cases n <;> simp [answers, ih]

/-- Where nothing was refused, all calls were accepted. -/
theorem accepted_answers_of_not_refused {limit : Option Nat} {calls : List Call}
    (h : refused (answers limit calls) = false) : accepted (answers limit calls) = calls := by
  rw [refused_answers] at h
  rw [accepted_answers]
  cases limit with
  | none => rfl
  | some n => exact List.take_of_length_le (by simpa using h)

/-- A host with room for all calls is one without a limit. -/
theorem answers_of_length_le {calls : List Call} {n : Nat} (h : calls.length ≤ n) :
    answers (some n) calls = answers none calls := by
  induction calls generalizing n with
  | nil => rfl
  | cons c calls ih =>
      obtain ⟨n, rfl⟩ : ∃ k, n = k + 1 := ⟨n - 1, by simp at h; omega⟩
      rw [answers, answers, ih (by simpa using h)]

/-- **What is offered later** goes on where the answers before it stopped: with the room that is
left, and not at all behind a refusal. -/
theorem answers_append (limit : Option Nat) (calls later : List Call) :
    answers limit (calls ++ later) = answers limit calls ++
      if refused (answers limit calls) then []
      else answers (roomAfter limit (answers limit calls)) later := by
  induction calls generalizing limit with
  | nil => cases limit <;> simp [answers, roomAfter]
  | cons c calls ih =>
      cases limit with
      | none =>
          rw [List.cons_append, answers, ih]
          rfl
      | some n => cases n <;> simp [answers, ih, roomAfter]

end Relay

namespace Running

open Relay (answers accepted refused roomAfter Cuts Asks)

/-! ### Looks -/

/-- All calls that the output asks for so far, taken or not. -/
def asked (plugin : Running) : List Relay.Call :=
  (Relay.calls (!plugin.process.behaviour.holdsOutput) plugin.unread).1

/-- A host with that much room looks at the output: its answers to what is offered, and the plugin
behind it. -/
def look (room : Option Nat) (plugin : Running) : List (Relay.Call × Bool) × Running :=
  let log := answers room plugin.offered
  (log, plugin.take (accepted log).length (refused log))

/-- The process goes on by itself: it may write more while it holds its output, and takes nothing
back. -/
structure GoesOn (plugin later : Running) : Prop where
  consumed : later.consumed = plugin.consumed
  reading : later.reading = plugin.reading
  output : plugin.process.behaviour.output <+: later.process.behaviour.output
  ended : plugin.process.behaviour.holdsOutput = false →
    later.process.behaviour.holdsOutput = false ∧
      later.process.behaviour.output = plugin.process.behaviour.output

/-- A host with that limit watches a plugin from when it was started on: it looks, and the process
goes on.  All its answers so far, in order. -/
inductive Watched (limit : Option Nat) (started : Running) :
    Running → List (Relay.Call × Bool) → Prop where
  | start : Watched limit started started []
  | goesOn {plugin later : Running} {log : List (Relay.Call × Bool)}
      (h : Watched limit started plugin log) (hgo : plugin.GoesOn later) :
      Watched limit started later log
  | look {plugin : Running} {log : List (Relay.Call × Bool)}
      (h : Watched limit started plugin log) :
      Watched limit started (plugin.look (roomAfter limit log)).2
        (log ++ (plugin.look (roomAfter limit log)).1)

/-- The lines of an output that is over, or goes on. -/
theorem lines_prefix (bytes more : List UInt8) (ended : Bool) :
    Relay.lines false bytes <+: Relay.lines ended (bytes ++ more) := by
  obtain ⟨whole, tail, h⟩ := Relay.exists_cuts bytes
  obtain ⟨whole', tail', h'⟩ := Relay.exists_cuts (tail ++ more)
  rw [h.lines_eq, (h.append h').lines_eq, Bool.false_and, if_neg Bool.false_ne_true,
    List.append_nil, List.map_append, List.append_assoc]
  exact List.prefix_append _ _

/-- **A process that goes on takes back no call.** -/
theorem GoesOn.asked_prefix {plugin later : Running} (h : plugin.GoesOn later)
    (hread : plugin.consumed ≤ plugin.process.behaviour.output.length) :
    plugin.asked <+: later.asked := by
  rw [asked, asked, unread, unread, h.consumed]
  cases hholds : plugin.process.behaviour.holdsOutput with
  | false =>
      obtain ⟨hlater, houtput⟩ := h.ended hholds
      rw [hlater, houtput]
  | true =>
      obtain ⟨more, houtput⟩ := h.output
      obtain ⟨lines, hlines⟩ := lines_prefix
        (plugin.process.behaviour.output.drop plugin.consumed) more
        (!later.process.behaviour.holdsOutput)
      rw [← houtput, List.drop_append_of_le_length hread, Relay.calls, Relay.calls, ← hlines]
      exact Relay.callsOf_append _ _

/-- How far the host has come behind a greeting: it has taken the calls that it accepted, and a
refusal ends it. -/
structure Follows (limit : Option Nat) (greeting : List UInt8) (plugin : Running)
    (log : List (Relay.Call × Bool)) : Prop where
  consumed : plugin.consumed = greeting.length
  output : greeting <+: plugin.process.behaviour.output
  reading : plugin.reading = .relaying (accepted log).length (refused log)
  answered : ∃ calls, calls <+: plugin.asked ∧ log = answers limit calls

/-- **A look catches up with the output**: behind it the answers are those to all calls that the
output asks for. -/
theorem Follows.look_eq {limit : Option Nat} {greeting : List UInt8} {plugin : Running}
    {log : List (Relay.Call × Bool)} (h : plugin.Follows limit greeting log) :
    log ++ (plugin.look (roomAfter limit log)).1 = answers limit plugin.asked ∧
      (plugin.look (roomAfter limit log)).2 = { plugin with
        reading := .relaying (accepted (answers limit plugin.asked)).length
          (refused (answers limit plugin.asked)) } := by
  obtain ⟨calls, ⟨later, hlater⟩, hlog⟩ := h.answered
  have hreading := h.reading
  rw [← hlater, Relay.answers_append, ← hlog]
  cases hrefused : refused log with
  | true =>
      rw [hrefused] at hreading
      have hoffered : plugin.offered = [] := by rw [offered, hreading]
      have htake : ∀ k r, plugin.take k r = plugin := fun k r => by rw [take, hreading]
      rw [look, hoffered, htake, if_pos rfl, List.append_nil, hrefused, ← hreading]
      exact ⟨by cases limit <;> exact List.append_nil _, rfl⟩
  | false =>
      rw [hrefused] at hreading
      have hcalls : accepted log = calls := by
        rw [hlog] at hrefused ⊢
        exact Relay.accepted_answers_of_not_refused hrefused
      have hoffered : plugin.offered = later := by
        rw [offered, hreading, hcalls]
        change plugin.asked.drop calls.length = later
        rw [← hlater, List.drop_left]
      rw [look, hoffered, if_neg Bool.false_ne_true, Relay.accepted_append, Relay.refused_append,
        hrefused, Bool.false_or, List.length_append]
      refine ⟨rfl, ?_⟩
      rw [take, hreading]

/-- What holds of a watched plugin at any time. -/
theorem Watched.follows {limit : Option Nat} {greeting : List UInt8} {started plugin : Running}
    {log : List (Relay.Call × Bool)} (h : Watched limit started plugin log)
    (hstarted : started.Follows limit greeting []) : plugin.Follows limit greeting log := by
  induction h with
  | start => exact hstarted
  | goesOn _ hgo ih =>
      obtain ⟨calls, hcalls, hlog⟩ := ih.answered
      have hread := ih.consumed.trans_le ih.output.length_le
      exact ⟨hgo.consumed.trans ih.consumed, ih.output.trans hgo.output,
        hgo.reading.trans ih.reading, calls, hcalls.trans (hgo.asked_prefix hread), hlog⟩
  | look _ ih =>
      obtain ⟨hanswers, hplugin⟩ := ih.look_eq
      rw [hanswers, hplugin]
      exact ⟨ih.consumed, ih.output, rfl, _, List.prefix_rfl, rfl⟩

/-- A host without a limit is, as far as it has come, one with room for the calls that it accepted. -/
theorem Watched.limited {started plugin : Running} {log : List (Relay.Call × Bool)}
    (h : Watched none started plugin log) {n : Nat} (hn : (accepted log).length ≤ n) :
    Watched (some n) started plugin log := by
  induction h with
  | start => exact .start
  | goesOn _ hgo ih => exact .goesOn (ih hn) hgo
  | @look plugin log h ih =>
      have hoffered : accepted (plugin.look (roomAfter none log)).1 = plugin.offered :=
        Relay.accepted_answers none plugin.offered
      rw [Relay.accepted_append, List.length_append, hoffered] at hn
      have hlook : plugin.look (roomAfter (some n) log) = plugin.look (roomAfter none log) := by
        have hroom : plugin.offered.length ≤ n - (accepted log).length := by omega
        rw [Running.look, Running.look, roomAfter, roomAfter, Option.map_some, Option.map_none,
          Relay.answers_of_length_le hroom]
      rw [← hlook]
      exact .look (ih (by omega))

/-! ### Processes that go on -/

/-- A program that writes more, if anything, when it is given more, and nothing once it has let go
of its output. -/
def IsSteady (program : Program) : Prop :=
  ∀ given more ended, (program given ended).output <+: (program (given ++ more) ended).output ∧
    ((program given ended).holdsOutput = false →
      (program (given ++ more) ended).holdsOutput = false ∧
        (program (given ++ more) ended).output = (program given ended).output)

theorem GoesOn.refl (plugin : Running) : plugin.GoesOn plugin :=
  ⟨rfl, rfl, List.prefix_rfl, fun h => ⟨h, rfl⟩⟩

theorem GoesOn.trans {plugin next later : Running} (h : plugin.GoesOn next)
    (h' : next.GoesOn later) : plugin.GoesOn later where
  consumed := h'.consumed.trans h.consumed
  reading := h'.reading.trans h.reading
  output := h.output.trans h'.output
  ended hplugin := by
    obtain ⟨hnext, houtput⟩ := h.ended hplugin
    obtain ⟨hlater, houtput'⟩ := h'.ended hnext
    exact ⟨hlater, houtput'.trans houtput⟩

/-- A process goes on when it is sent a message. -/
theorem goesOn_send {plugin plugin' : Running} (hsteady : IsSteady plugin.process.program)
    {m : HostMessage} (h : plugin.send m = .ok plugin') : plugin.GoesOn plugin' := by
  obtain ⟨houtput, hended⟩ := hsteady plugin.process.given (lineOf m) plugin.process.ended
  have halive := killed_of_send h
  rw [eq_of_send h]
  refine ⟨rfl, rfl, ?_, ?_⟩
  · simpa [Subprocess.behaviour, halive] using houtput
  · simpa [Subprocess.behaviour, halive] using hended

/-- It goes on when it is called, whether the call reaches it or not. -/
theorem goesOn_call {plugin : Running} (hsteady : IsSteady plugin.process.program)
    (direction : Direction) (colony : ColonyId) (id : MessageId) (text : String) :
    plugin.GoesOn (plugin.call direction colony id text).2 := by
  rw [call.eq_def]
  dsimp only
  split
  · next hsend => exact goesOn_send hsteady hsend
  · exact .refl plugin

theorem program_call (plugin : Running) (direction : Direction) (colony : ColonyId)
    (id : MessageId) (text : String) :
    (plugin.call direction colony id text).2.process.program = plugin.process.program := by
  rw [call.eq_def]
  dsimp only
  split
  · next hsend => rw [eq_of_send hsend]
  · rfl

/-- It goes on when it is shut down: what it wrote until then is all that it writes. -/
theorem goesOn_shutdown {plugin : Running} (hsteady : IsSteady plugin.process.program) :
    plugin.GoesOn plugin.shutdown := by
  have hkill : ∀ p : Running,
      p.GoesOn { p with connected := false, process := p.process.kill } := fun p => by
    refine ⟨rfl, rfl, ?_, fun _ => ⟨rfl, ?_⟩⟩ <;>
      cases hkilled : p.process.killed <;> simp [Subprocess.behaviour, Subprocess.kill, hkilled]
  rw [shutdown]
  split
  · next hsend => exact (goesOn_send hsteady hsend).trans (hkill _)
  · exact hkill plugin

/-! ### From the greeting on -/

/-- The process was launched and nothing was done with it yet. -/
structure IsFresh (plugin : Running) : Prop where
  consumed : plugin.consumed = 0
  reading : plugin.reading = .greeting

/-- The first line that the process wrote, with its line feed or up to the end of the output, is a
greeting with that name. -/
structure Greets (plugin : Running) (greeting : List UInt8) (name : String) : Prop where
  output : greeting <+: plugin.process.behaviour.output
  complete : (∃ line, 10 ∉ line ∧ greeting = line ++ [10]) ∨
    10 ∉ greeting ∧ plugin.process.behaviour.output = greeting ∧
      plugin.process.behaviour.holdsOutput = false
  ready : ∃ text, Text.Utf8.decode greeting = .ok text ∧
    PluginMessage.decode text = .ok (.ready name protocolVersion)

theorem Greets.firstLine_eq {plugin : Running} {greeting : List UInt8} {name : String}
    (h : plugin.Greets greeting name) :
    firstLine plugin.process.behaviour.output = greeting := by
  rcases h.complete with ⟨line, hline, rfl⟩ | ⟨hgreeting, houtput, -⟩
  · obtain ⟨rest, hrest⟩ := h.output
    rw [← hrest, List.append_assoc, List.singleton_append, firstLine_line hline]
  · rw [houtput]
    exact firstLine_tail hgreeting

/-- Behind the greeting, nothing was asked yet. -/
theorem Greets.follows {plugin : Running} {greeting : List UInt8} {name : String}
    (h : plugin.Greets greeting name) (limit : Option Nat) :
    Follows limit greeting { plugin with
      consumed := greeting.length, name := name, reading := .relaying 0 false } [] where
  consumed := rfl
  output := h.output
  reading := rfl
  answered := ⟨[], List.nil_prefix, by cases limit <;> rfl⟩

theorem nameOf_of_ready {greeting : List UInt8} {name text : String}
    (htext : Text.Utf8.decode greeting = .ok text)
    (hready : PluginMessage.decode text = .ok (.ready name protocolVersion)) :
    nameOf greeting = .ok name := by
  have hnonempty : text.isEmpty = false := by
    by_contra hempty
    obtain rfl := String.isEmpty_iff.mp (Bool.of_not_eq_false hempty)
    obtain ⟨e, he⟩ := PluginMessage.exists_decode_of_isAllBlank (s := "") rfl
    rw [he] at hready
    cases hready
  rw [nameOf, htext]
  simp only [hnonempty, hready, if_true, Bool.false_eq_true, if_false]

/-- **A plugin that greets is started**, and exactly its greeting is read. -/
theorem start_eq {plugin greeted : Running} {greeting : List UInt8} {name : String}
    (hfresh : plugin.IsFresh) (hsend : plugin.send (.init protocolVersion) = .ok greeted)
    (hgreets : greeted.Greets greeting name) :
    plugin.start = (.ok (), { greeted with
      consumed := greeting.length, name := name, reading := .relaying 0 false }) := by
  obtain ⟨text, htext, hready⟩ := hgreets.ready
  have hreading : greeted.reading = .greeting := by rw [eq_of_send hsend, hfresh.reading]
  have hconsumed : greeted.consumed = 0 := by rw [eq_of_send hsend, hfresh.consumed]
  have hline : firstLine greeted.unread = greeting := by
    rw [unread, hconsumed, List.drop_zero, hgreets.firstLine_eq]
  simp only [start, hsend, hreading, hline, hconsumed, Nat.zero_add, nameOf_of_ready htext hready]

end Running

/-! ### The hosts -/

namespace Rehearsal.Trial

open Relay (accepted roomAfter)

/-- A trial looks at the output with the room that its records leave. -/
theorem relay_eq (trial : Trial) (plugin : Running) {log : List (Relay.Call × Bool)}
    (hrecords : trial.records = accepted log) :
    trial.relay plugin = { trial with
      records := accepted (log ++ (plugin.look (roomAfter trial.limit log)).1)
      plugin := some (plugin.look (roomAfter trial.limit log)).2 } := by
  have haccepted := Relay.accepted_answers (roomAfter trial.limit log) plugin.offered
  have hrefused := Relay.refused_answers (roomAfter trial.limit log) plugin.offered
  rw [Running.look, Relay.accepted_append, haccepted, hrefused, relay, hrecords]
  cases trial.limit with
  | none => simp [roomAfter]
  | some n => simp [roomAfter]

end Rehearsal.Trial

namespace Host.Service

open Relay (answers accepted refused)

/-- The room of the host for calls: there is no limit until the loop has been asked to stop. -/
def room (scene : Scene Relay.Call (Facilities Station)) : Option Nat :=
  if scene.exitRequested then some 0 else none

/-- Where the loop goes on, a call is scheduled behind the others. -/
theorem on_scheduleFor (call : Relay.Call) {scene : Scene Relay.Call (Facilities Station)}
    (hexit : scene.exitRequested = false) :
    (Facilities.scheduleFor call).on scene =
      (.ok (.ok ()), { scene with scheduled := scene.scheduled ++ [call] }) := by
  have hasked : (Turn.exitRequested : Service Bool).on scene = (.ok false, scene) := by
    rw [← hexit]
    rfl
  rw [Facilities.scheduleFor, Turn.on_bind, hasked]
  rfl

/-- The host schedules the calls that it accepts, in order. -/
theorem on_scheduleAll (calls : List Relay.Call) (scene : Scene Relay.Call (Facilities Station)) :
    (scheduleAll calls).on scene =
      (.ok ((accepted (answers (room scene) calls)).length, refused (answers (room scene) calls)),
        { scene with
          scheduled := scene.scheduled ++ accepted (answers (room scene) calls) }) := by
  induction calls generalizing scene with
  | nil =>
      have hnone : answers (room scene) [] = [] := by cases room scene <;> rfl
      rw [hnone, Relay.accepted_nil, List.append_nil]
      rfl
  | cons c calls ih =>
      by_cases hexit : scene.exitRequested = true
      · have hroom : room scene = some 0 := if_pos hexit
        rw [scheduleAll, Turn.on_bind, Loop.on_scheduleFor c hexit, hroom, answers,
          Relay.accepted_cons_false, Relay.accepted_nil, List.append_nil]
        rfl
      · have hroom : room scene = none := if_neg hexit
        have hlater := ih { scene with scheduled := scene.scheduled ++ [c] }
        have hroom' : room { scene with scheduled := scene.scheduled ++ [c] } = none := hroom
        rw [hroom'] at hlater
        rw [scheduleAll, Turn.on_bind, on_scheduleFor c (Bool.of_not_eq_true hexit)]
        dsimp only
        rw [Turn.on_bind, hlater, hroom, answers, Relay.accepted_cons_true,
          Relay.refused_cons_true, List.append_assoc]
        rfl

/-- The host looks at the output of the plugin process. -/
theorem on_relay {scene : Scene Relay.Call (Facilities Station)} {plugin : Running}
    (hrunning : scene.world.own.running = some plugin) :
    relay.on scene = (.ok (), { scene with
      scheduled := scene.scheduled ++ accepted (plugin.look (room scene)).1
      world := { scene.world with own := { scene.world.own with
        running := some (plugin.look (room scene)).2 } } }) := by
  have hseen : running.on scene = (.ok (some plugin), scene) := by
    rw [← hrunning]
    rfl
  rw [relay, Turn.on_bind, hseen]
  dsimp only
  rw [Turn.on_bind, on_scheduleAll]
  rfl

/-- A call of a plugin sends its text once, and does nothing else. -/
theorem on_relayCall (c : Relay.Call) (scene : Scene Relay.Call (Facilities Station)) :
    (relayCall c).on scene =
      ((scene.world.outbound.send c.colony c.id c.direction c.text).1.map fun _ => (),
        { scene with world := { scene.world with
          outbound := (scene.world.outbound.send c.colony c.id c.direction c.text).2 } }) := by
  have hsend : (Facilities.send c.direction c.colony c.id c.text).on scene =
      ((scene.world.outbound.send c.colony c.id c.direction c.text).1,
        { scene with world := { scene.world with
          outbound := (scene.world.outbound.send c.colony c.id c.direction c.text).2 } }) := rfl
  rw [relayCall, Facilities.sendFor, Turn.on_bind, Turn.on_bind, hsend]
  cases (scene.world.outbound.send c.colony c.id c.direction c.text).1 <;> rfl

/-- So does the turn that the loop gives to it. -/
theorem on_call (c : Relay.Call) (scene : Scene Relay.Call (World Unit Station)) :
    (handlers.call c).on scene =
      ((scene.world.facilities.outbound.send c.colony c.id c.direction c.text).1.map fun _ => (),
        { scene with world := { scene.world with facilities := { scene.world.facilities with
          outbound :=
            (scene.world.facilities.outbound.send c.colony c.id c.direction c.text).2 } } }) := by
  change (Bridge.offering (relayCall c)).on scene = _
  rw [on_offering, on_relayCall]
  rfl

end Host.Service

namespace Running

open Relay (accepted roomAfter answers Cuts Asks)
open Host (Facilities Scene Service Station World)

/-- **What a plugin prints is relayed once and in order.**  A plugin that was launched and greets is
started.  Whenever a host looks at it later, the output is the greeting and a rest, and the rest is
cut at its line feeds: all that the host was asked and answered is what it answers to the calls that
these lines ask for, the last line included where the output is over.  So are the records of a trial,
and what the loop is left to run; and each call that it runs sends its text once. -/
theorem relay_output {limit : Option Nat} {plugin greeted : Running} {greeting : List UInt8}
    {name : String} (hfresh : plugin.IsFresh)
    (hsend : plugin.send (.init protocolVersion) = .ok greeted)
    (hgreets : greeted.Greets greeting name) :
    ∃ started, plugin.start = (.ok (), started) ∧ started.name = name ∧
      ∀ seen log, Watched limit started seen log → ∃ rest whole tail calls,
        seen.process.behaviour.output = greeting ++ rest ∧ Cuts rest whole tail ∧
        Asks (whole.map Relay.withoutReturn ++
          if !seen.process.behaviour.holdsOutput && !tail.isEmpty then [tail] else []) calls ∧
        log ++ (seen.look (roomAfter limit log)).1 = answers limit calls ∧
        (∀ trial : Rehearsal.Trial, trial.limit = limit → trial.records = accepted log →
          trial.relay seen = { trial with
            records := accepted (answers limit calls)
            plugin := some (seen.look (roomAfter limit log)).2 }) ∧
        (∀ scene : Scene Relay.Call (Facilities Station), scene.world.own.running = some seen →
          Service.room scene = roomAfter limit log →
          Service.relay.on scene = (.ok (), { scene with
            scheduled := scene.scheduled ++ accepted (seen.look (roomAfter limit log)).1
            world := { scene.world with own := { scene.world.own with
              running := some (seen.look (roomAfter limit log)).2 } } })) ∧
        ∀ c ∈ accepted (answers limit calls), ∀ scene : Scene Relay.Call (World Unit Station),
          (Service.handlers.call c).on scene =
            ((scene.world.facilities.outbound.send c.colony c.id c.direction c.text).1.map
                fun _ => (),
              { scene with world := { scene.world with facilities := { scene.world.facilities with
                outbound := (scene.world.facilities.outbound.send
                  c.colony c.id c.direction c.text).2 } } }) := by
  refine ⟨_, start_eq hfresh hsend hgreets, rfl, fun seen log hwatched => ?_⟩
  have hfollows : seen.Follows limit greeting log := hwatched.follows (hgreets.follows limit)
  have hlook := hfollows.look_eq
  obtain ⟨rest, hrest⟩ := hfollows.output
  obtain ⟨whole, tail, hcuts⟩ := Relay.exists_cuts rest
  have hunread : seen.unread = rest := by
    rw [unread, hfollows.consumed, ← hrest, List.drop_left]
  refine ⟨rest, whole, tail, seen.asked, hrest.symm, hcuts, ?_, hlook.1, ?_, ?_, ?_⟩
  · rw [← hcuts.lines_eq, Relay.asks_iff, asked, hunread, Relay.calls]
  · rintro trial rfl hrecords
    rw [trial.relay_eq seen hrecords, hlook.1]
  · intro scene hrunning hroom
    rw [Service.on_relay hrunning, hroom]
  · exact fun c _ scene => Service.on_call c scene

/-- **A host that is asked to stop** has been, all the time, one with room for the calls that it has
accepted by then.  Its next look schedules nothing, and behind it the answers are those of such a host
to all calls that the output asks for; however the process goes on, no more calls are accepted. -/
theorem relay_stopped {plugin greeted started seen : Running} {greeting : List UInt8}
    {name : String} {log : List (Relay.Call × Bool)} (hfresh : plugin.IsFresh)
    (hsend : plugin.send (.init protocolVersion) = .ok greeted)
    (hgreets : greeted.Greets greeting name) (hstart : plugin.start = (.ok (), started))
    (hwatched : Watched none started seen log) {scene : Scene Relay.Call (Facilities Station)}
    (hrunning : scene.world.own.running = some seen) (hexit : scene.exitRequested = true) :
    let limit := some (accepted log).length
    ∃ last stopped,
      Service.relay.on scene = (.ok (), { scene with
        world := { scene.world with own := { scene.world.own with running := some stopped } } }) ∧
      log ++ last = answers limit seen.asked ∧ Watched limit started stopped (log ++ last) ∧
      ∀ later log', Watched limit started later log' →
        (accepted log').length ≤ (accepted log).length := by
  intro limit
  have hstarted : started.Follows limit greeting [] := by
    obtain rfl := (Prod.mk.inj (hstart.symm.trans (start_eq hfresh hsend hgreets))).2
    exact hgreets.follows limit
  have hlimited : Watched limit started seen log := hwatched.limited le_rfl
  have hroom : roomAfter limit log = some 0 := by simp [limit, roomAfter]
  have hlook := (hlimited.follows hstarted).look_eq.1
  have hnext := hlimited.look
  rw [hroom] at hlook hnext
  refine ⟨_, _, ?_, hlook, hnext, fun later log' hlater => ?_⟩
  · have hnone : accepted (seen.look (some 0)).1 = [] :=
      Relay.accepted_answers (some 0) seen.offered
    have hscene : Service.room scene = some 0 := if_pos hexit
    rw [Service.on_relay hrunning, hscene, hnone, List.append_nil]
  · obtain ⟨calls, -, rfl⟩ := (hlater.follows hstarted).answered
    rw [Relay.accepted_answers]
    exact List.length_take_le _ _

/-! ### A plugin whose lines are cut anywhere -/

namespace Chatty

def greeting : List UInt8 :=
  Text.Utf8.encode (PluginMessage.ready "demo" protocolVersion).print ++ [10]

/-- What the process writes behind its greeting at once: a call, and the beginning of another one
that names no colony. -/
def early : List UInt8 :=
  Text.Utf8.encode ((PluginMessage.command ⟨7⟩ ⟨1⟩ "a").print ++ "\n\x7b\"type\":\"resp\",")

/-- What it writes when it is called: the rest of that line, which ends in a carriage return, a
blank line, one that is no message, another greeting, a call, and a call without a line feed. -/
def late : List UInt8 :=
  Text.Utf8.encode ("\"cmdId\":2,\"msg\":\"b\"\x7d\r\n \t\nnoise\n" ++
    (PluginMessage.ready "demo" protocolVersion).print ++ "\n" ++
    (PluginMessage.command ⟨7⟩ ⟨3⟩ "c").print ++ "\n" ++
    (PluginMessage.response ⟨7⟩ ⟨4⟩ "d").print)

/-- The line that a plugin is greeted with. -/
def init : List UInt8 := lineOf (.init protocolVersion)

def program : Program := fun given _ =>
  if given.length < init.length then ⟨[], true, true⟩
  else if given.length = init.length then ⟨greeting ++ early, true, true⟩
  else ⟨greeting ++ early ++ late, true, true⟩

theorem isSteady_program : IsSteady program := by
  intro given more ended
  have hlength : (given ++ more).length = given.length + more.length := List.length_append
  rw [program, program]
  by_cases hshort : given.length < init.length
  · rw [if_pos hshort]
    exact ⟨List.nil_prefix, fun h => by cases h⟩
  rw [if_neg hshort, if_neg (by omega : ¬ (given ++ more).length < init.length)]
  by_cases hinit : given.length = init.length
  · rw [if_pos hinit]
    refine ⟨?_, fun h => by cases h⟩
    split
    · exact List.prefix_rfl
    · exact List.prefix_append _ _
  · rw [if_neg hinit, if_neg (by omega : ¬ (given ++ more).length = init.length)]
    exact ⟨List.prefix_rfl, fun h => by cases h⟩

def launched : Running := ⟨"application/demo", .start program, true, 0, .greeting⟩

def greeted : Running := { launched with process := { launched.process with given := init } }

def started : Running :=
  { greeted with consumed := greeting.length, name := "demo", reading := .relaying 0 false }

/-- The plugin behind the first look of a host with room for three calls. -/
def seen : Running := (started.look (some 3)).2

def called : Running := (seen.call .command ⟨7⟩ ⟨9⟩ "go").2

end Chatty

/-- The plugin is called and then shut down.  With room for three calls, the host accepts the one of
the first read, the one that was cut and the third, and refuses the one that ends the output. -/
theorem relay_output_chatty :
    Chatty.launched.IsFresh ∧
      Chatty.launched.send (.init protocolVersion) = .ok Chatty.greeted ∧
      Chatty.greeted.Greets Chatty.greeting "demo" ∧
      Watched (some 3) Chatty.started Chatty.called.shutdown (Chatty.started.look (some 3)).1 ∧
      answers (some 3) Chatty.called.shutdown.asked =
        [(⟨.command, ⟨7⟩, ⟨1⟩, "a"⟩, true), (⟨.response, ⟨0⟩, ⟨2⟩, "b"⟩, true),
          (⟨.command, ⟨7⟩, ⟨3⟩, "c"⟩, true), (⟨.response, ⟨7⟩, ⟨4⟩, "d"⟩, false)] ∧
      ∃ rest whole tail calls,
        Chatty.called.shutdown.process.behaviour.output = Chatty.greeting ++ rest ∧
        Cuts rest whole tail ∧
        Asks (whole.map Relay.withoutReturn ++
          if !Chatty.called.shutdown.process.behaviour.holdsOutput && !tail.isEmpty then [tail]
          else []) calls ∧
        (Chatty.started.look (some 3)).1 ++ (Chatty.called.shutdown.look (some 2)).1 =
          answers (some 3) calls := by
  have hfresh : Chatty.launched.IsFresh := ⟨rfl, rfl⟩
  have hsend : Chatty.launched.send (.init protocolVersion) = .ok Chatty.greeted :=
    send_eq_ok_iff.mpr ⟨rfl, by decide +kernel, rfl⟩
  have hgreets : Chatty.greeted.Greets Chatty.greeting "demo" :=
    { output := by decide +kernel
      complete := .inl ⟨Text.Utf8.encode (PluginMessage.ready "demo" protocolVersion).print,
        by decide +kernel, rfl⟩
      ready := ⟨(PluginMessage.ready "demo" protocolVersion).print ++ "\n", by decide +kernel,
        by decide +kernel⟩ }
  have hcalled : Chatty.called.process.program = Chatty.program :=
    program_call Chatty.seen .command ⟨7⟩ ⟨9⟩ "go"
  have hwatched : Watched (some 3) Chatty.started Chatty.called.shutdown
      (Chatty.started.look (some 3)).1 :=
    .goesOn (.goesOn (.look .start) (goesOn_call Chatty.isSteady_program .command ⟨7⟩ ⟨9⟩ "go"))
      (goesOn_shutdown (hcalled ▸ Chatty.isSteady_program))
  obtain ⟨started, hstart, -, hlooks⟩ := @relay_output (some 3) _ _ _ _ hfresh hsend hgreets
  obtain rfl : started = Chatty.started :=
    (Prod.mk.inj (hstart.symm.trans (start_eq hfresh hsend hgreets))).2
  obtain ⟨rest, whole, tail, calls, houtput, hcuts, hasks, hlog, -⟩ := hlooks _ _ hwatched
  have hroom : roomAfter (some 3) (Chatty.started.look (some 3)).1 = some 2 := by decide +kernel
  rw [hroom] at hlog
  exact ⟨hfresh, hsend, hgreets, hwatched, by decide +kernel, rest, whole, tail, calls, houtput,
    hcuts, hasks, hlog⟩

end Running

end NativeMessaging
