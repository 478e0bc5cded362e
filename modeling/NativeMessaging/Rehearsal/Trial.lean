import NativeMessaging.Plugin.Configured

/-!
# Rehearsal — Trial

A plugin process taken through steps one by one, with a host that records what the plugin asks it to
relay and accepts only so many calls.
-/

namespace NativeMessaging.Rehearsal

open Relay (Call)

structure Trial where
  files : Files.Tree
  entries : List (String × Settings.PluginEntry)
  limit : Option Nat
  plugin : Option Running
  records : List Call
  reported : Nat

namespace Trial

/-- Takes what a plugin offers, as far as the limit allows. -/
def relay (trial : Trial) (plugin : Running) : Trial :=
  let offered := plugin.offered
  let accepted := match trial.limit with
    | some n => offered.take (n - trial.records.length)
    | none   => offered
  { trial with
    records := trial.records ++ accepted
    plugin := some (plugin.take accepted.length (accepted.length < offered.length)) }

/-- What can be done with a plugin. -/
inductive Step where
  | load (mimetype : String)
  | start
  | call (direction : Direction) (colony : ColonyId) (id : MessageId) (text : String)
  | shutdown
  | awaitCount (count : Nat)
  | drain
  deriving DecidableEq, Repr

/-- What a step gives; some report the calls that were recorded since the last report. -/
inductive Outcome where
  | done (result : Except PluginError Unit)
  | noPlugin
  | report (calls : List Call)

/-- Loads a plugin in place of the present one. -/
def load (trial : Trial) (mimetype : String) : Outcome × Trial :=
  match Running.ofEntries trial.files trial.entries mimetype with
  | .ok plugin => (.done (.ok ()), { trial with plugin := some plugin })
  | .error e   => (.done (.error e), { trial with plugin := none })

/-- Does something with the present plugin. -/
def withPlugin (trial : Trial) (f : Running → Except PluginError Unit × Running) :
    Outcome × Trial :=
  match trial.plugin with
  | none        => (.noPlugin, trial)
  | some plugin =>
    let (result, plugin) := f plugin
    (.done result, trial.relay plugin)

/-- Reports the calls up to a number of them. -/
def reportUpTo (trial : Trial) (count : Nat) : Outcome × Trial :=
  (.report ((trial.records.take count).drop trial.reported),
    { trial with reported := max trial.reported (min count trial.records.length) })

/-- Takes one step. -/
def step (trial : Trial) : Step → Outcome × Trial
  | .load mimetype                  => trial.load mimetype
  | .start                          => trial.withPlugin Running.start
  | .call direction colony id text  =>
    trial.withPlugin fun plugin => plugin.call direction colony id text
  | .shutdown                       => trial.withPlugin fun plugin => (.ok (), plugin.shutdown)
  | .awaitCount count               => trial.reportUpTo count
  | .drain                          => trial.reportUpTo trial.records.length

end Trial

end NativeMessaging.Rehearsal
