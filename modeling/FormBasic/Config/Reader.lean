import FormBasic.Config
import FormBasic.Text.Case
import FormBasic.Toml.Reader

/-!
# Settings from a file

A settings file overlays the settings that hold without it. Keys are known in any letter case. The
first fault decides: a file that cannot be read, a value of the wrong type, keys that mean nothing,
a colour that there is not.
-/

namespace FormBasic

/-- Why a settings file was refused. -/
inductive ConfigError where
  /-- The text is malformed, or a value has the wrong type. -/
  | malformed
  /-- Keys that mean nothing, in the order in which they were written. -/
  | unknownKeys (keys : List Toml.Path)
  | noSuchColor
deriving Repr, DecidableEq

/-- The text of a fault in the file at a path. -/
def ConfigError.message (path : String) (e : ConfigError) : String :=
  "config " ++ path ++ ": " ++ match e with
    | .malformed => "malformed settings"
    | .unknownKeys keys =>
      "unknown keys [" ++ String.intercalate " " (keys.map Toml.pathText) ++ "]"
    | .noSuchColor => "console colors must be in 0-15"

namespace Config

/-- A setting that takes a text. -/
def ofText (set : String → Config → Config) : Toml.Content → Config → Option Config
  | .value (.text s), c => some (set s c)
  | _, _ => none

/-- A setting that takes a whole number. -/
def ofWhole (set : Int → Config → Config) : Toml.Content → Config → Option Config
  | .value (.whole n), c => some (set n c)
  | _, _ => none

/-- A setting that takes a duration, as a text or as a number in the notation of durations. -/
def ofDuration (set : Duration → Config → Config) : Toml.Content → Config → Option Config
  | .value (.text s), c => (Duration.parse? s).map (set · c)
  | .value (.whole n), c => (Duration.parse? (Decimal.intText n)).map (set · c)
  | _, _ => none

/-- The settings by name, with what a value does to them. -/
def settings : List (String × (Toml.Content → Config → Option Config)) := [
  ("Version", ofText fun s c => { c with version := s }),
  ("BuildDate", ofText fun s c => { c with buildDate := s }),
  ("Commit", ofText fun s c => { c with commit := s }),
  ("RootPath", ofText fun s c => { c with rootPath := s }),
  ("log_level", ofText fun s c => { c with logLevel := s }),
  ("log_file", ofText fun s c => { c with logFile := s }),
  ("startup_form", ofText fun s c => { c with startupForm := s }),
  ("entry_point", ofText fun s c => { c with entryPoint := s }),
  ("poll_interval", ofDuration fun d c => { c with pollInterval := d }),
  ("foreground", ofWhole fun n c => { c with foreground := n }),
  ("background", ofWhole fun n c => { c with background := n }),
  ("connection_string", ofText fun s c => { c with connectionString := s })]

/-- What a value does under a key. -/
def setting? (key : String) : Option (Toml.Content → Config → Option Config) :=
  (settings.find? fun s => Text.equalFold s.1 key).map (·.2)

/-- Whether a key is the name of a setting. -/
def isKnown : Toml.Path → Bool
  | [key] => (setting? key).isSome
  | _ => false

/-- Take over what a path holds. Only paths of one part can be settings. -/
def take? (c : Config) : Toml.Path × Toml.Content → Option Config
  | ([key], content) =>
    match setting? key with
    | some set => set content c
    | none => some c
  | _ => some c

/-- Whether a number is that of a colour. -/
def isColor (n : Int) : Bool := 0 ≤ n && n ≤ 15

/-- A poll interval that is not positive gives way to the usual one. -/
def withPositiveInterval (c : Config) : Config :=
  if c.pollInterval.nanoseconds ≤ 0 then { c with pollInterval := usualInterval } else c

/-- The settings of a document over others. -/
def overlay (c : Config) (d : Toml.Document) : Except ConfigError Config :=
  match d.contents.foldlM take? c with
  | none => .error .malformed
  | some c =>
    let unknown := d.keys.filter (!isKnown ·)
    if !unknown.isEmpty then .error (.unknownKeys unknown)
    else if isColor c.foreground && isColor c.background then .ok c.withPositiveInterval
    else .error .noSuchColor

/-- The settings of a file over others. -/
def read (c : Config) (text : String) : Except ConfigError Config :=
  match Toml.Document.read? text with
  | some d => c.overlay d
  | none => .error .malformed

end Config

end FormBasic
