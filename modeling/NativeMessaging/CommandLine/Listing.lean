import NativeMessaging.Settings.Basic

/-!
# CommandLine — Listing

The list of the plugins that the settings name.
-/

namespace NativeMessaging.CommandLine

/-- The lines for a plugin: its mimetype, its program, and the arguments for it if there are any. -/
def pluginLines (mimetype : String) (entry : Settings.PluginEntry) : String :=
  s!"{mimetype}\n  executable: {entry.executable}\n" ++
    if entry.args.isEmpty then "" else "  args: " ++ String.intercalate " " entry.args ++ "\n"

/-- The list of all plugins. -/
def pluginListing (settings : Settings) : String :=
  if settings.plugins.isEmpty then
    "No plugins configured. Add plugins.\"<mimetype>\" to config.toml.\n"
  else
    String.join (settings.plugins.map fun (mimetype, entry) => pluginLines mimetype entry)

end NativeMessaging.CommandLine
