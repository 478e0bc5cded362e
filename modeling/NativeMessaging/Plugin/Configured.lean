import NativeMessaging.Plugin.Running
import NativeMessaging.Settings.Basic

/-!
# Plugin — Configured

Plugins as the settings name them: a process for each mimetype.
-/

namespace NativeMessaging

namespace Settings.PluginEntry

/-- How the process of a plugin is launched. -/
def launch (entry : PluginEntry) : Launch :=
  ⟨entry.executable, entry.args, entry.workingDirectory, entry.environment⟩

end Settings.PluginEntry

namespace Running

/-- Launches the plugin that the settings name for a mimetype. -/
def ofEntries (files : Files.Tree) (entries : List (String × Settings.PluginEntry))
    (mimetype : String) : Except PluginError Running :=
  match entries.lookup mimetype with
  | some entry => launch files mimetype entry.launch
  | none       => .error (.load mimetype "no plugin configured for this mimetype")

end Running

end NativeMessaging
