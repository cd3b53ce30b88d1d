import Bindery.Target.Builtin.All
import Bindery.Target.Discovery

/-
  This file defines the application: a registry that plugins
  have filled one after the other.

  Key definitions include:
    * `Plugin`
    * `Plugin.ofBuiltin`
    * `Plugin.ofDirectory`
    * `App`
    * `App.build`
    * `App.withSearchPaths`
    * `App.generate`
-/

namespace Bindery

------------------------------------------------------------
-- Plugins
------------------------------------------------------------

/- A provider of targets, which registers them at setup. -/
structure Plugin where
  name : String
  setup : FileSystem → Registry → Traced GenerationError Registry

namespace Plugin

/- The plugin of a target that comes with the program. -/
def ofBuiltin (target : BuiltinTarget) : Plugin where
  name := target.id
  setup := fun _ registry =>
    registry.register target.id target.id target.generate

/- The plugin of the targets in a directory. -/
def ofDirectory (path : String) : Plugin where
  name := path
  setup := fun fs registry => do
    let found ← Traced.ofExcept (discover fs path)
    registerFound path found registry

/- The event of a plugin being set up. -/
def startedEvent (plugin : Plugin) : Event :=
  ⟨.debug, .generate, "setting up plugin", [("plugin", plugin.name)]⟩

/- Set a plugin up; a failure names the plugin. -/
def setUp
    (plugin : Plugin)
    (fs : FileSystem)
    (registry : Registry) : Traced GenerationError Registry := do
  Traced.emit [plugin.startedEvent]
  (plugin.setup fs registry).mapError (.pluginSetup plugin.name)

end Plugin

------------------------------------------------------------
-- Applications
------------------------------------------------------------

/- The application with its registry. -/
structure App where
  registry : Registry

namespace App

/- Set plugins up in order, adding to a registry. -/
def setUpAll
    (fs : FileSystem) :
    List Plugin → Registry → Traced GenerationError Registry
| [], registry => Traced.pure registry
| plugin :: rest, registry => do
    let registry ← plugin.setUp fs registry
    setUpAll fs rest registry

/- The application of some plugins. -/
def build
    (fs : FileSystem)
    (plugins : List Plugin) : Traced GenerationError App := do
  let registry ← setUpAll fs plugins .empty
  Traced.pure ⟨registry⟩

/- The plugins of the targets that come with the program. -/
def builtinPlugins : List Plugin :=
  Builtin.targets.map Plugin.ofBuiltin

/-
  The application of the targets that come with the program
  and then those in some directories.
-/
def withSearchPaths
    (fs : FileSystem)
    (paths : List String) : Traced GenerationError App :=
  build fs (builtinPlugins ++ paths.map Plugin.ofDirectory)

/- Generate a target for a schema. -/
def generate
    (app : App)
    (fs : FileSystem)
    (schema : Schema)
    (id : String) : Traced GenerationError Generation :=
  app.registry.generate fs schema id

/- The application, as shown for inspection. -/
def inspect (app : App) : String :=
  "App \x7b registry: " ++ app.registry.inspect ++ " \x7d"

end App

end Bindery
