import NativeMessaging.Proofs.Host.Heedless
import NativeMessaging.Proofs.Host.Inbound
import NativeMessaging.Proofs.Plugin.Relay
import NativeMessaging.Subprocess.Installed

/-!
# Host — no process is left behind

A host launches a process when a plugin is asked for.  It lets go of every one of them in the same
way: it tells the process to stop, where that still reads, closes its input and kills it
(`Running.IsReleased`).  It does so also with a process that never got ready, which no bridge ever
held.  So it holds the process that was launched last where the bridge holds a plugin, and nowhere
else (`World.IsTidy`); and none is launched before the one in front of it was let go of.

* `Running.isReleased_shutdown`: what a shutdown does to a process.
* `Service.load_yields`: a plugin that cannot be loaded or started leaves no process.
* `Bridge.exists_install`: when a process is launched, none runs.
* `Bridge.dispatch_yields`, `Loop.settle_keeps`: every message leaves a tidy world, and so does the loop.
* `Session.Reached.isTidy`, `Session.leaves_nothing`: whatever comes in, the world of a host is tidy, and
  at the end no process runs.
-/

namespace NativeMessaging

namespace Running

variable {plugin : Running}

/-- The host holds the input of the process, and did not kill it. -/
structure IsHeld (plugin : Running) : Prop where
  connected : plugin.connected = true
  alive : plugin.process.killed = false

/-- The host told the process to stop, unless it no longer read; then it closed the input of the
process and killed it. -/
structure IsReleased (plugin : Running) : Prop where
  told : lineOf .shutdown <:+ plugin.process.given ∨
    (plugin.process.program plugin.process.given plugin.process.ended).holdsInput = false
  closed : plugin.connected = false
  killed : plugin.process.killed = true

/-- **Shutting a process down** lets go of it, also where that was done before. -/
theorem isReleased_shutdown (h : plugin.IsHeld ∨ plugin.IsReleased) :
    plugin.shutdown.IsReleased := by
  rw [shutdown]
  split
  · next hsend =>
    rw [eq_of_send hsend]
    exact ⟨.inl (List.suffix_append _ _), rfl, rfl⟩
  · next e hsend =>
    refine ⟨?_, rfl, rfl⟩
    rcases h with hheld | hreleased
    · -- the request could not be written, so the process no longer reads
      have hrefused : plugin.process.behaviour.holdsInput = false := by
        by_contra hholds
        rw [send_eq_ok_iff.mpr ⟨hheld.connected, Bool.of_not_eq_false hholds, rfl⟩] at hsend
        cases hsend
      rw [Subprocess.behaviour, hheld.alive] at hrefused
      exact .inr hrefused
    · exact hreleased.told

theorem IsHeld.of_send {plugin' : Running} {m : HostMessage} (h : plugin.IsHeld)
    (hsend : plugin.send m = .ok plugin') : plugin'.IsHeld := by
  rw [eq_of_send hsend]
  exact ⟨h.connected, h.alive⟩

theorem IsHeld.start (h : plugin.IsHeld) : plugin.start.2.IsHeld := by
  rw [Running.start]
  split
  · exact h
  · next hsend =>
    have hgreeted := h.of_send hsend
    split
    · exact hgreeted
    · dsimp only
      split
      · exact ⟨hgreeted.connected, hgreeted.alive⟩
      · exact ⟨hgreeted.connected, hgreeted.alive⟩

theorem IsHeld.call (h : plugin.IsHeld) (direction : Direction) (colony : ColonyId)
    (id : MessageId) (text : String) : (plugin.call direction colony id text).2.IsHeld := by
  rw [call.eq_def]
  dsimp only
  split
  · next hsend => exact h.of_send hsend
  · exact h

/-- Taking calls of a process does nothing to it. -/
theorem IsHeld.take (h : plugin.IsHeld) (accepted : Nat) (refused : Bool) :
    (plugin.take accepted refused).IsHeld := by
  rw [Running.take]
  split
  · exact ⟨h.connected, h.alive⟩
  · exact h

theorem IsReleased.take (h : plugin.IsReleased) (accepted : Nat) (refused : Bool) :
    (plugin.take accepted refused).IsReleased := by
  rw [Running.take]
  split
  · exact ⟨h.told, h.closed, h.killed⟩
  · exact h

theorem killed_of_start {l : Launch} {files : Files.Tree} {process : Subprocess}
    (h : l.start files = .ok process) : process.killed = false := by
  rw [Launch.start] at h
  split at h
  · cases h
  · obtain ⟨place, -, h⟩ := bind_eq_ok_iff.mp h
    obtain ⟨name, -, h⟩ := bind_eq_ok_iff.mp h
    obtain rfl := Except.ok.inj h
    rfl

/-- A process that is launched is held. -/
theorem isHeld_of_entries {files : Files.Tree} {entries : List (String × Settings.PluginEntry)}
    {mimetype : String} (h : ofEntries files entries mimetype = .ok plugin) : plugin.IsHeld := by
  rw [ofEntries] at h
  split at h
  · rw [launch] at h
    split at h
    · next hstart =>
      obtain rfl := Except.ok.inj h
      exact ⟨rfl, killed_of_start hstart⟩
    · cases h
  · cases h

end Running

namespace Host

open Turn (Yields yields_pure)
open Bridge (offered offering)

/-- No process runs: the host let go of the one that was launched last, if there is one. -/
def Station.IsClear (station : Station) : Prop :=
  ∀ plugin, station.running = some plugin → plugin.IsReleased

/-- The host holds the process that was launched last. -/
def Station.IsBusy (station : Station) : Prop :=
  ∃ plugin, station.running = some plugin ∧ plugin.IsHeld

/-! ### Turns on behalf of the process -/

namespace Service

variable {scene : Scene Relay.Call (Facilities Station)} {plugin : Running}

theorem on_running (scene : Scene Relay.Call (Facilities Station)) :
    running.on scene = (.ok scene.world.own.running, scene) := rfl

/-- Something is done with the process, and the host looks at its output behind it. -/
theorem withRunning_yields (f : Running → Except PluginError Unit × Running)
    (hrunning : scene.world.own.running = some plugin) :
    (withRunning f).Yields scene fun result s => result = (f plugin).1 ∧
      ∃ accepted refused, s.world.own.running = some ((f plugin).2.take accepted refused) := by
  have hset : (setRunning (some (f plugin).2)).Yields scene fun _ s =>
      s.world.own.running = some (f plugin).2 := ⟨(), _, rfl, rfl⟩
  rw [withRunning, Yields, Turn.on_bind, on_running, hrunning]
  refine hset.bind fun _ s₁ h₁ => ?_
  exact Yields.bind ⟨(), _, on_relay h₁, _, _, rfl⟩ fun _ s₂ h₂ => yields_pure ⟨rfl, h₂⟩

/-- **A shutdown** leaves no process. -/
theorem shutdown_yields (h : scene.world.own.IsBusy ∨ scene.world.own.IsClear) :
    shutdown.Yields scene fun _ s => s.world.own.IsClear := by
  cases hrunning : scene.world.own.running with
  | none =>
      have hnone : (withRunning fun plugin => (.ok (), plugin.shutdown)).Yields scene
          fun _ s => s.world.own.running = none :=
        ⟨.ok (), scene, by rw [withRunning, Turn.on_bind, on_running, hrunning]; rfl, hrunning⟩
      refine hnone.bind fun _ s hs => yields_pure fun plugin hplugin => ?_
      rw [hs] at hplugin
      cases hplugin
  | some plugin =>
      have hplugin : plugin.IsHeld ∨ plugin.IsReleased := by
        rcases h with ⟨plugin', hplugin', hheld⟩ | hclear
        · obtain rfl := Option.some.inj (hplugin'.symm.trans hrunning)
          exact .inl hheld
        · exact .inr (hclear plugin hrunning)
      refine (withRunning_yields _ hrunning).bind fun _ s hs => yields_pure fun plugin' hplugin' => ?_
      obtain ⟨-, accepted, refused, hlast⟩ := hs
      obtain rfl := Option.some.inj (hlast.symm.trans hplugin')
      exact (Running.isReleased_shutdown hplugin).take accepted refused

/-- A launch that fails does nothing, and one that succeeds leaves a process that the host holds. -/
theorem launch_yields (mimetype : String) :
    (launch mimetype).Yields scene fun result s =>
      (∃ e, result = .error e ∧ s = scene) ∨ result = .ok () ∧ s.world.own.IsBusy := by
  refine Yields.world ?_
  dsimp only
  cases hlaunch : Running.ofEntries scene.world.own.files scene.world.own.entries mimetype with
  | error e => exact yields_pure (.inl ⟨e, rfl, rfl⟩)
  | ok plugin =>
      have hset : (setRunning (some plugin)).Yields scene fun _ s => s.world.own.IsBusy :=
        ⟨(), _, rfl, plugin, rfl, Running.isHeld_of_entries hlaunch⟩
      exact hset.bind fun _ _ hs => yields_pure (.inr ⟨rfl, hs⟩)

/-- **A plugin that does not get ready** leaves no process. -/
theorem start_yields (h : scene.world.own.IsBusy) :
    start.Yields scene fun result s =>
      (∃ e, result = .error e ∧ s.world.own.IsClear) ∨ result = .ok () ∧ s.world.own.IsBusy := by
  obtain ⟨plugin, hrunning, hheld⟩ := h
  refine (withRunning_yields _ hrunning).bind fun result s hs => ?_
  obtain ⟨-, accepted, refused, hlast⟩ := hs
  have hbusy : s.world.own.IsBusy := ⟨_, hlast, hheld.start.take accepted refused⟩
  cases result with
  | error e =>
      exact (shutdown_yields (.inl hbusy)).bind fun _ _ hclear =>
        yields_pure (.inl ⟨e, rfl, hclear⟩)
  | ok _ => exact yields_pure (.inr ⟨rfl, hbusy⟩)

/-- **A plugin that cannot be loaded or started** leaves no process, where none was before. -/
theorem load_yields (mimetype : String) (h : scene.world.own.IsClear) :
    (Bridge.load plugins mimetype).Yields scene fun loaded s =>
      (∃ e, loaded = .error e ∧ s.world.own.IsClear) ∨
        (∃ plugin, loaded = .ok plugin) ∧ s.world.own.IsBusy := by
  refine (launch_yields mimetype).bind fun launched s hs => ?_
  rcases hs with ⟨e, rfl, rfl⟩ | ⟨rfl, hbusy⟩
  · exact yields_pure (.inl ⟨e, rfl, h⟩)
  · refine (start_yields hbusy).bind fun started s₁ h₁ => ?_
    rcases h₁ with ⟨e, rfl, hclear⟩ | ⟨rfl, hbusy⟩
    · exact yields_pure (.inl ⟨e, rfl, hclear⟩)
    · exact yields_pure (.inr ⟨⟨(), rfl⟩, hbusy⟩)

/-- The host still holds the process behind a call. -/
theorem onCall_yields (direction : Direction) (colony : ColonyId) (id : MessageId)
    (payload : String) (h : scene.world.own.IsBusy) :
    (plugins.onCall direction () colony id payload).Yields scene fun _ s =>
      s.world.own.IsBusy := by
  obtain ⟨plugin, hrunning, hheld⟩ := h
  refine (withRunning_yields _ hrunning).mono fun _ s hs => ?_
  obtain ⟨-, accepted, refused, hlast⟩ := hs
  exact ⟨_, hlast, (hheld.call direction colony id payload).take accepted refused⟩

end Service

/-! ### The bridge -/

/-- The host holds the process that was launched last where the bridge holds a plugin, and nowhere
else; and the sink does not panic. -/
structure World.IsTidy (world : World Unit Station) : Prop where
  calm : world.facilities.IsCalm
  busy : world.bridge.plugin.isSome → world.facilities.own.IsBusy
  clear : world.bridge.plugin = none → world.facilities.own.IsClear

theorem World.isTidy_of_clear {world : World Unit Station} (hcalm : world.facilities.IsCalm)
    (hnone : world.bridge.plugin = none) (hclear : world.facilities.own.IsClear) :
    world.IsTidy where
  calm := hcalm
  busy hsome := by
    rw [hnone] at hsome
    cases hsome
  clear _ := hclear

theorem World.isTidy_of_busy {world : World Unit Station} (hcalm : world.facilities.IsCalm)
    (hsome : world.bridge.plugin.isSome) (hbusy : world.facilities.own.IsBusy) :
    world.IsTidy where
  calm := hcalm
  busy _ := hbusy
  clear hnone := by
    rw [hnone] at hsome
    cases hsome

/-- A turn that is heedless of the way out leaves a calm sink calm. -/
theorem keepsCalm_of_heedless {κ σ α : Type} {turn : Turn κ (Facilities σ) α}
    (h : turn.Heedless Facilities.Alike) : KeepsCalm turn := fun scene hcalm =>
  (h scene scene ⟨rfl, rfl, rfl, rfl, rfl, hcalm, hcalm⟩).2.world.calm

namespace Bridge

open Service (plugins heedless_plugins)

variable {α : Type} {scene : Scene Relay.Call (World Unit Station)}

/-- A turn on behalf of the process leaves the bridge as it is and the sink calm. -/
theorem serving_yields {turn : Service α} {post : α → Scene Relay.Call (Facilities Station) → Prop}
    (hheedless : turn.Heedless Facilities.Alike) (hcalm : scene.world.facilities.IsCalm)
    (h : turn.Yields (offered scene) post) :
    (offering turn).Yields scene fun a s => post a (offered s) ∧
      s.world.facilities.IsCalm ∧ s.world.bridge = scene.world.bridge := by
  obtain ⟨a, after, hrun, hpost⟩ := h
  have hcalm' := keepsCalm_of_heedless hheedless (offered scene) hcalm
  rw [hrun] at hcalm'
  rw [Yields, on_offering, hrun]
  exact ⟨a, _, rfl, hpost, hcalm', rfl⟩

theorem ack_yields (a : Ack) (hcalm : scene.world.facilities.IsCalm) :
    (ack a).Yields scene fun _ s => s.world.facilities.IsCalm ∧
      s.world.bridge = scene.world.bridge ∧
      s.world.facilities.own = scene.world.facilities.own := by
  obtain ⟨hok, hafter⟩ := ack_calm a hcalm
  exact ⟨(), _, Prod.ext hok rfl, hafter⟩

theorem ack_tidy (a : Ack) (h : scene.world.IsTidy) :
    (ack a).Yields scene fun _ s => s.world.IsTidy := by
  refine (ack_yields a h.calm).mono fun _ s hs => ?_
  obtain ⟨hcalm, hbridge, hown⟩ := hs
  have hbusy := h.busy
  have hclear := h.clear
  rw [← hbridge, ← hown] at hbusy hclear
  exact ⟨hcalm, hbusy, hclear⟩

theorem setPlugin_yields (plugin : Option Unit) (scene : Scene Relay.Call (World Unit Station)) :
    (setPlugin plugin).Yields scene fun _ s =>
      s.world = ⟨⟨plugin, scene.world.bridge.state⟩, scene.world.facilities⟩ ∧
        offered s = offered scene :=
  ⟨(), _, rfl, rfl, rfl⟩

theorem setState_yields (state : BridgeState) (scene : Scene Relay.Call (World Unit Station)) :
    (setState state).Yields scene fun _ s =>
      s.world = ⟨⟨scene.world.bridge.plugin, state⟩, scene.world.facilities⟩ :=
  ⟨(), _, rfl, rfl⟩

/-- **A shutdown** leaves neither a plugin nor a process. -/
theorem shutdown_yields (h : scene.world.IsTidy) :
    (shutdown plugins).Yields scene fun _ s =>
      s.world.bridge.plugin = none ∧ s.world.IsTidy := by
  refine Yields.world ?_
  cases hplugin : scene.world.bridge.plugin with
  | none =>
      refine (setState_yields .uninitialized scene).mono fun _ s hs => ?_
      rw [hs]
      exact ⟨hplugin, World.isTidy_of_clear h.calm hplugin (h.clear hplugin)⟩
  | some plugin =>
      refine (setPlugin_yields none scene).bind fun _ s₁ h₁ => ?_
      obtain ⟨hworld, hoffered⟩ := h₁
      have hcalm : s₁.world.facilities.IsCalm := by rw [hworld]; exact h.calm
      have hbusy : (offered s₁).world.own.IsBusy := by
        rw [hoffered]
        exact h.busy (hplugin ▸ rfl)
      refine (serving_yields (heedless_plugins.shutdown plugin) hcalm
        (Service.shutdown_yields (.inl hbusy))).bind fun _ s₂ h₂ => ?_
      obtain ⟨hclear, hcalm₂, hbridge⟩ := h₂
      refine (setState_yields .uninitialized s₂).mono fun _ s₃ h₃ => ?_
      have hnone : s₃.world.bridge.plugin = none := by rw [h₃, hbridge, hworld]
      refine ⟨hnone, World.isTidy_of_clear ?_ hnone ?_⟩
      · rw [h₃]
        exact hcalm₂
      · rw [h₃]
        exact hclear

/-- A plugin is installed where no process runs; where it cannot be, none runs afterwards. -/
theorem install_yields (mimetype : String) (h : scene.world.IsTidy)
    (hnone : scene.world.bridge.plugin = none) :
    (install plugins mimetype).Yields scene fun _ s => s.world.IsTidy := by
  have hclear : (offered scene).world.own.IsClear := h.clear hnone
  refine (serving_yields (heedless_load heedless_plugins mimetype) h.calm
    (Service.load_yields mimetype hclear)).bind fun loaded s₁ h₁ => ?_
  obtain ⟨⟨e, rfl, hclear₁⟩ | ⟨⟨plugin, rfl⟩, hbusy₁⟩, hcalm₁, hbridge₁⟩ := h₁
  · refine (ack_yields _ hcalm₁).bind fun _ s₂ h₂ => ?_
    obtain ⟨hcalm₂, hbridge₂, hown₂⟩ := h₂
    refine (setState_yields _ s₂).mono fun _ s₃ h₃ => ?_
    rw [h₃]
    refine World.isTidy_of_clear hcalm₂ ?_ ?_
    · rw [hbridge₂, hbridge₁]
      exact hnone
    · rw [hown₂]
      exact hclear₁
  · refine Yields.world ?_
    refine (ack_yields _ hcalm₁).bind fun _ s₂ h₂ => ?_
    obtain ⟨hcalm₂, -, hown₂⟩ := h₂
    refine (setPlugin_yields (some plugin) s₂).bind fun _ s₃ h₃ => ?_
    refine (setState_yields _ s₃).mono fun _ s₄ h₄ => ?_
    rw [h₄, h₃.1]
    refine World.isTidy_of_busy hcalm₂ rfl ?_
    rw [hown₂]
    exact hbusy₁

/-- **When a process is launched, none runs**: what is left to do for a request begins in a tidy
world where the bridge holds no plugin. -/
theorem exists_install (mimetype : String) (h : scene.world.IsTidy) :
    ∃ s, (create plugins mimetype).on scene = (install plugins mimetype).on s ∧
      s.world.bridge.plugin = none ∧ s.world.IsTidy := by
  rw [create_eq, Turn.on_bind, Turn.on_world]
  dsimp only
  by_cases hheld : scene.world.bridge.plugin.isSome
  · obtain ⟨_, s, hrun, hnone, htidy⟩ := shutdown_yields h
    rw [if_pos hheld, Turn.on_bind, hrun]
    exact ⟨s, rfl, hnone, htidy⟩
  · rw [if_neg hheld]
    exact ⟨scene, rfl, by simpa using hheld, h⟩

theorem create_yields (mimetype : String) (h : scene.world.IsTidy) :
    (create plugins mimetype).Yields scene fun _ s => s.world.IsTidy := by
  obtain ⟨s, heq, hnone, htidy⟩ := exists_install mimetype h
  rw [Yields, heq]
  exact install_yields mimetype htidy hnone

theorem forward_yields (direction : Direction) (colony : ColonyId) (id : MessageId)
    (payload : String) (h : scene.world.IsTidy) :
    (forward plugins direction colony id payload).Yields scene fun _ s => s.world.IsTidy := by
  refine Yields.world ?_
  cases hplugin : scene.world.bridge.plugin with
  | none => exact ack_tidy noPlugin h
  | some plugin =>
      have hsome : scene.world.bridge.plugin.isSome := hplugin ▸ rfl
      have hbusy : (offered scene).world.own.IsBusy := h.busy hsome
      refine (serving_yields (heedless_plugins.onCall direction plugin colony id payload) h.calm
        (Service.onCall_yields direction colony id payload hbusy)).bind fun _ s hs => ?_
      obtain ⟨hbusy', hcalm, hbridge⟩ := hs
      exact yields_pure (World.isTidy_of_busy hcalm (hbridge ▸ hsome) hbusy')

/-- **Every message** is dispatched, and leaves a tidy world. -/
theorem dispatch_yields (message : Message) (h : scene.world.IsTidy) :
    (dispatch plugins message).Yields scene fun _ s => s.world.IsTidy := by
  cases message with
  | create mimetype             => exact create_yields mimetype h
  | command colony id payload   => exact forward_yields .command colony id payload h
  | response colony id payload  => exact forward_yields .response colony id payload h
  | error description           => exact ack_tidy _ h

end Bridge

/-! ### The loop -/

/-- Every turn that the handlers give leaves the world so. -/
structure Handlers.Keep {κ ω : Type} (handlers : Handlers κ ω) (holds : ω → Prop) : Prop where
  call (c : κ) : Turn.Keeps (fun scene => holds scene.world) (handlers.call c)
  dispatch (m : Message) : Turn.Keeps (fun scene => holds scene.world) (handlers.dispatch m)

namespace Loop

variable {κ ω : Type} {handlers : Handlers κ ω} {holds : ω → Prop} {loop : Loop κ ω}

theorem round_keeps (h : handlers.Keep holds) (hloop : holds loop.world) :
    holds (loop.round handlers).2.world := by
  have hcalled : holds (loop.takeCall handlers).2.world := by
    rw [takeCall]
    split
    · exact hloop
    · next c cs _ => exact h.call c { loop with calls := cs }.scene hloop
  change holds ((loop.takeCall handlers).2.takeMessage handlers).2.world
  rw [takeMessage]
  split
  · exact hcalled
  · next m ms _ => exact h.dispatch m { (loop.takeCall handlers).2 with inbound := ms }.scene hcalled

/-- **What every turn keeps** the loop keeps, however long it runs. -/
theorem settle_keeps (h : handlers.Keep holds) (rounds : Nat) (hloop : holds loop.world) :
    holds (loop.settle handlers rounds).world := by
  induction rounds generalizing loop with
  | zero => exact hloop
  | succ rounds ih =>
      rw [settle]
      split
      · exact hloop
      · exact ih (round_keeps h hloop)

end Loop

/-- The host leaves a tidy world behind every turn that its loop gives. -/
theorem Service.keep_handlers : handlers.Keep World.IsTidy where
  call c scene h := by
    have hcalm : ((handlers.call c).on scene).2.world.facilities.IsCalm :=
      keepsCalm_of_heedless (heedless_relayCall c) (offered scene) h.calm
    rw [on_call] at hcalm ⊢
    exact ⟨hcalm, h.busy, h.clear⟩
  dispatch m scene h := by
    obtain ⟨_, after, hrun, htidy⟩ := Bridge.dispatch_yields m h
    change ((Bridge.dispatch plugins m).on scene).2.world.IsTidy
    rw [hrun]
    exact htidy

/-! ### Sessions -/

namespace Session

variable {settings : Settings} {files : Files.Tree} {session : Session}

/-- What becomes of a host with those settings: input arrives in parts, what was sent is taken, and
at last the input ends. -/
inductive Reached (settings : Settings) (files : Files.Tree) : Session → Prop where
  | start : Reached settings files (.start settings files)
  | receive {session : Session} (h : Reached settings files session) (bytes : List UInt8) :
      Reached settings files (session.receive bytes)
  | drain {session : Session} (h : Reached settings files session) :
      Reached settings files session.drain.2
  | finish {session : Session} (h : Reached settings files session) :
      Reached settings files session.finish

/-- The world of the session is tidy. -/
abbrev IsTidy (session : Session) : Prop := session.loop.world.IsTidy

theorem IsTidy.stopReading (h : session.IsTidy) : session.stopReading.IsTidy :=
  ⟨h.calm, h.busy, h.clear⟩

/-- A frame comes in, and the loop runs until it waits. -/
theorem IsTidy.messageIn (h : session.IsTidy) (raw : String) :
    (session.perform (Facilities.messageIn raw)).settle.IsTidy := by
  have hreceived : (session.perform (Facilities.messageIn raw)).IsTidy := by
    change ((offering (Facilities.messageIn raw)).on session.loop.scene).2.world.IsTidy
    rw [on_offering, Facilities.on_messageIn]
    exact ⟨h.calm, h.busy, h.clear⟩
  exact Loop.settle_keeps Service.keep_handlers maxRounds hreceived

theorem IsTidy.takeFrames (h : session.IsTidy) (rounds : Nat) :
    (takeFrames rounds session).IsTidy := by
  induction rounds generalizing session with
  | zero => exact h
  | succ rounds ih =>
      rw [Session.takeFrames]
      split
      · split
        · exact h
        · exact h
        · exact h.stopReading
        · next raw source _ =>
          have hpending : ({ session with pending := source.bytes } : Session).IsTidy := h
          exact ih (hpending.messageIn raw)
      · exact h

theorem IsTidy.receive (h : session.IsTidy) (bytes : List UInt8) :
    (session.receive bytes).IsTidy := by
  have hpending : ({ session with pending := session.pending ++ bytes } : Session).IsTidy := h
  exact hpending.takeFrames _

theorem IsTidy.finish (h : session.IsTidy) :
    session.finish.IsTidy ∧ session.finish.loop.world.facilities.own.IsClear := by
  have hstopped : session.stopReading.loop.scene.world.IsTidy := h.stopReading
  obtain ⟨_, after, hrun, hnone, htidy⟩ := Bridge.shutdown_yields hstopped
  have hworld : session.finish.loop.world = after.world := by
    change ((Bridge.shutdown Service.plugins).on session.stopReading.loop.scene).2.world = _
    rw [hrun]
  rw [IsTidy, hworld]
  exact ⟨htidy, htidy.clear hnone⟩

/-- **Whatever comes in**, the host holds the process that was launched last where the bridge holds a
plugin, and nowhere else. -/
theorem Reached.isTidy (h : Reached settings files session) : session.IsTidy := by
  induction h with
  | start               => exact World.isTidy_of_clear List.not_mem_nil rfl fun _ h => by cases h
  | receive _ bytes ih  => exact ih.receive bytes
  | drain _ ih          => exact ⟨ih.calm, ih.busy, ih.clear⟩
  | finish _ ih         => exact ih.finish.1

/-- **A host leaves no process behind.**  At the end of its input it has let go of the process that
it launched last. -/
theorem leaves_nothing (h : Reached settings files session) :
    session.finish.loop.world.facilities.own.IsClear :=
  h.isTidy.finish.2

/-- Settings with a plugin that sends every line back, and so never says that it is ready. -/
def echoing : Settings :=
  { Settings.default with plugins := [("application/x-echo", ⟨"/bin/cat", [], none, []⟩)] }

/-- A host with these settings that was asked for the plugin. -/
def refused : Session :=
  (start echoing ⟨Subprocess.installed, [], 0⟩).receive
    (Frame.bytes "\x7b\"cmd\":\"create\",\"mimetype\":\"application/x-echo\"\x7d")

/-- The bridge holds no plugin, and the process was greeted, told to stop, and killed. -/
example : refused.loop.world.bridge.plugin = none ∧
    (refused.loop.world.facilities.own.running.map fun plugin =>
        (plugin.process.given, plugin.connected, plugin.process.killed)) =
      some (Running.lineOf (.init protocolVersion) ++ Running.lineOf .shutdown, false, true) := by
  decide +kernel

end Session

end Host

end NativeMessaging
