import NativeMessaging.Plugin.Error

/-!
# Plugin — Registry

Plugins by mimetype, in ascending order of the mimetypes.
-/

namespace NativeMessaging.Plugin

/-- What is registered for each mimetype. -/
structure Registry (α : Type) where
  entries : List (String × α)

namespace Registry

variable {α : Type}

/-- Nothing registered. -/
def empty : Registry α := ⟨[]⟩

/-- Puts an entry at its place, instead of one of its mimetype. -/
def insertEntry (mimetype : String) (a : α) : List (String × α) → List (String × α)
  | []           => [(mimetype, a)]
  | (m, b) :: es =>
    if mimetype < m then (mimetype, a) :: (m, b) :: es
    else if mimetype = m then (mimetype, a) :: es
    else (m, b) :: insertEntry mimetype a es

/-- Registers for a mimetype, instead of what was registered before. -/
def register (registry : Registry α) (mimetype : String) (a : α) : Registry α :=
  ⟨insertEntry mimetype a registry.entries⟩

/-- What is registered, the last one of a mimetype counting. -/
def ofList (entries : List (String × α)) : Registry α :=
  entries.foldl (fun registry (mimetype, a) => registry.register mimetype a) empty

/-- The mimetypes, in ascending order. -/
def mimetypes (registry : Registry α) : List String := registry.entries.map Prod.fst

/-- What is registered for a mimetype. -/
def find (registry : Registry α) (mimetype : String) : Except PluginError α :=
  match registry.entries.lookup mimetype with
  | some a => .ok a
  | none   => .error (.load mimetype "no plugin registered for this mimetype")

end Registry

end NativeMessaging.Plugin
