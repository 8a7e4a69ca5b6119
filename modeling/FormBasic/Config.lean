import FormBasic.Duration

/-!
# Settings

The settings of a run. The defaults of the fields are what holds when nothing else is said.
-/

namespace FormBasic

/-- How often the console host looks for output. -/
def Config.usualInterval : Duration := ⟨50000000⟩

/-- Settings of a run. -/
structure Config where
  version : String := ""
  buildDate : String := ""
  commit : String := ""
  /-- The directory under which modules are looked for. -/
  rootPath : String := "."
  logLevel : String := "NONE"
  logFile : String := ""
  /-- The form class that form mode starts with. -/
  startupForm : String := ""
  /-- The procedure that console mode runs. -/
  entryPoint : String := "Main"
  /-- How often the console host looks for output. -/
  pollInterval : Duration := Config.usualInterval
  foreground : Int := 7
  background : Int := 0
  connectionString : String := ""
deriving Repr, Inhabited, DecidableEq

end FormBasic
