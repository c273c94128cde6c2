import OpenMso.Transport.Paths

/-! # The command a manifest launches (Rust)

`manifest.rs`, without the JSON it reads. Strings are compared by character:
all that is looked for in them is ASCII. Paths are those of Unix.
-/

namespace OpenMso.Manifest

set_option autoImplicit false

/-- Of a manifest only the command is read. -/
structure PluginManifest where
  run : List String
  deriving DecidableEq, Repr

/-- `Path::is_absolute` -/
def isAbsolute (path : String) : Bool := path.toList.head? == some '/'

/-- `Path::join` with any path. -/
def join (base path : String) : String :=
  if isAbsolute path then path else Transport.join base path

def looksLikePath (token : String) : Bool :=
  token.toList.contains '/' || ".py".toList.isSuffixOf token.toList

def resolveToken (pluginDir python token : String) : String :=
  if token = "{python}" then python
  else if !looksLikePath token || isAbsolute token then token
  else join pluginDir token

/-- Expand `run` into an argv: `{python}` becomes `python`, and anything that looks like a relative
path resolves against the plugin's own directory. -/
def resolveArgv (manifest : PluginManifest) (pluginDir python : String) : List String :=
  manifest.run.map (resolveToken pluginDir python)

end OpenMso.Manifest
