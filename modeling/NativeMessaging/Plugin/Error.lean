/-!
# Plugin — Error

What can go wrong with a plugin: it cannot be loaded, does not start, or rejects a call.
-/

namespace NativeMessaging

inductive PluginError where
  | load (mimetype reason : String)
  | init (reason : String)
  | call (reason : String)
  deriving DecidableEq, Repr

def PluginError.message : PluginError → String
  | .load mimetype reason => s!"failed to load plugin for {mimetype}: {reason}"
  | .init reason          => s!"plugin initialization failed: {reason}"
  | .call reason          => s!"plugin call failed: {reason}"

end NativeMessaging
