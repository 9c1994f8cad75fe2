import SqlMaps.Config.Error
import SqlMaps.Files.Basic
import SqlMaps.Keyed
import SqlMaps.Markup.Document

/-! Registries: templates filed under names.

A directory is loaded whole: every file in it whose name ends in `.xml` is a template,
under its name without that ending. -/
namespace SqlMaps

/-- Where the templates of a registry came from. -/
inductive RegistrySource where
  | directory (path : String)
  | memory
  deriving DecidableEq

/-- Templates filed under names. -/
structure Registry where
  templates : Keyed String (List Markup.Event)
  source : RegistrySource

namespace Registry

/-- A registry without templates. -/
def empty : Registry := ⟨[], .memory⟩

/-- How many templates there are. -/
def size (r : Registry) : Nat := r.templates.length

/-- Whether there are no templates. -/
def isEmpty (r : Registry) : Bool := r.templates.isEmpty

/-- The names of the templates, in order. -/
def names (r : Registry) : List String :=
  r.templates.map Prod.fst

/-- The template of a name. -/
def get? (r : Registry) (name : String) : Option (List Markup.Event) :=
  r.templates.lookup name

/-- Whether there is a template of the name. -/
def contains (r : Registry) (name : String) : Bool :=
  (r.get? name).isSome

/-- The template of a name, which there has to be. -/
def require (r : Registry) (name : String) : Except ConfigError (List Markup.Event) :=
  match r.get? name with
  | some events => .ok events
  | none => .error (.templateNotFound name)

/-- Files a template, in place of the one of the same name. -/
def insert (r : Registry) (name : String) (events : List Markup.Event) : Registry :=
  { r with templates := Keyed.file Keyed.byName name events r.templates }

/-- The events of a template; a fault names the place it was read from. -/
def parse (place text : String) : Except ConfigError (List Markup.Event) :=
  (Markup.Document.events text).mapError (.malformedTemplate place)

/-- Files the template that a text holds. -/
def insertText (r : Registry) (name text : String) : Except ConfigError Registry := do
  return r.insert name (← parse name text)

/-- The ending of template files. -/
def templateExtension : String := "xml"

/-- Loads the template files among the names in a directory. -/
def loadAll (files : Files) (directory : String) : List String → Registry →
    Except ConfigError Registry
  | [], r => .ok r
  | name :: names, r => do
    let (stem, extension) := Path.splitName name
    if extension = some templateExtension then
      let path := Path.join directory name
      let text ← (files.readText path).mapError .file
      loadAll files directory names (r.insert stem (← parse path text))
    else loadAll files directory names r

/-- Loads the template files of a directory. -/
def ofDirectory (files : Files) (directory : String) : Except ConfigError Registry := do
  let names ← (files.list directory).mapError .file
  loadAll files directory names ⟨[], .directory directory⟩

end Registry

end SqlMaps
