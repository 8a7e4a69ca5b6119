import FormBasic.Value

/-!
# Effects

What a program does to the world outside. Effects are queued while the program runs, and the host
takes them from the queue afterwards.
-/

namespace FormBasic

/-- A control that a program puts on a form. -/
structure PlacedControl where
  form : String
  name : String
  control : String
  left : Int
  top : Int
  width : Int
  height : Int
deriving Repr, Inhabited, DecidableEq

/-- A question that a program asks with an input box. -/
structure InputPrompt where
  prompt : String
  title : String
  initial : String
  x : Int
  y : Int
deriving Repr, Inhabited, DecidableEq

/-- One action for the host. -/
inductive Effect where
  | messageBox (text : String)
  | propertyChange (object property : String) (value : Value)
  | consoleOutput (text : String)
  | consoleClear
  | dataSourceChanged (control : String) (columns : List String) (rows : List (List String))
  | positionChanged (source : String) (position count : Int)
  | formClose (form : String)
  | formShowDialog (form : String)
  | addControl (placed : PlacedControl)
  | inputBox (prompt : InputPrompt)
  | runApplication (form : String)
deriving Inhabited

/-- The name of the kind of an effect. -/
def Effect.kind : Effect → String
  | .messageBox _ => "MsgBox"
  | .propertyChange .. => "PropertyChange"
  | .consoleOutput _ => "ConsoleOutput"
  | .consoleClear => "ConsoleClear"
  | .dataSourceChanged .. => "DataSourceChanged"
  | .positionChanged .. => "BindingPositionChanged"
  | .formClose _ => "FormClose"
  | .formShowDialog _ => "FormShowDialog"
  | .addControl .. => "AddControl"
  | .inputBox .. => "InputBox"
  | .runApplication _ => "RunApplication"

end FormBasic
