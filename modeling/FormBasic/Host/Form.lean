import FormBasic.Machine.Host

/-!
# The form host

A host that drives one form. It shows a `FormView`, which is what the effects of the program and the
edits of the user amount to. Edits are pushed into the program just before the next event, and after
every event all effects that it queued are applied. An event that arrives while another one is being
dispatched is refused and changes nothing.
-/

namespace FormBasic

/-- Where a binding source stands. -/
structure BindingPlace where
  position : Int
  count : Int
deriving Repr, Inhabited, DecidableEq

/-- What the host shows. Controls, properties, grids and bindings are known by their names in lower
case. -/
structure FormView where
  form : String
  controls : Table (Table Value) := ∅
  messageBoxes : List String := []
  console : String := ""
  dialogs : List String := []
  closed : Bool := false
  grids : Table Data.ResultSet := ∅
  bindings : Table BindingPlace := ∅
  addedControls : List PlacedControl := []
  inputPrompts : List InputPrompt := []
  runningForm : String := ""

/-- Remove the last entry of a list that is equal to a text up to case. -/
def eraseLast (name : String) : List String → List String
  | [] => []
  | x :: xs =>
    if xs.any (Text.equalFold · name) then x :: eraseLast name xs
    else if Text.equalFold x name then xs
    else x :: xs

namespace FormView

/-- The properties of a control. -/
def propertiesOf (v : FormView) (control : String) : Table Value :=
  (v.controls.find? (Text.lower control)).getD ∅

/-- The value that a property was last given. -/
def property? (v : FormView) (control property : String) : Option Value :=
  (v.propertiesOf control).find? (Text.lower property)

/-- Show a property. -/
def setProperty (v : FormView) (control property : String) (value : Value) : FormView :=
  let properties := (v.propertiesOf control).insert (Text.lower property) value
  { v with controls := v.controls.insert (Text.lower control) properties }

/-- Show a control that the program has added. -/
def place (v : FormView) (c : PlacedControl) : FormView :=
  let number (n : Int) : Value := .integer (Int32.ofInt n)
  let v := { v with addedControls := v.addedControls ++ [c] }
  let v := v.setProperty c.name "left" (number c.left)
  let v := v.setProperty c.name "top" (number c.top)
  let v := v.setProperty c.name "width" (number c.width)
  v.setProperty c.name "height" (number c.height)

/-- Close the form, or the dialog of that name that was opened last. -/
def close (v : FormView) (form : String) : FormView :=
  if Text.equalFold form v.form then { v with closed := true }
  else { v with dialogs := eraseLast form v.dialogs }

/-- Apply an effect. -/
def apply (v : FormView) : Effect → FormView
  | .messageBox text => { v with messageBoxes := v.messageBoxes ++ [text] }
  | .propertyChange object property value => v.setProperty object property value
  | .consoleOutput text => { v with console := v.console ++ text }
  | .consoleClear => { v with console := "" }
  | .dataSourceChanged control columns rows =>
    { v with grids := v.grids.insert (Text.lower control) ⟨columns, rows⟩ }
  | .positionChanged source position count =>
    { v with bindings := v.bindings.insert (Text.lower source) ⟨position, count⟩ }
  | .formShowDialog form => { v with dialogs := v.dialogs ++ [form] }
  | .formClose form => v.close form
  | .addControl c => v.place c
  | .inputBox p => { v with inputPrompts := v.inputPrompts ++ [p] }
  | .runApplication form => { v with runningForm := form }

end FormView

/-- A value that the user gave a property. -/
structure Edit where
  control : String
  property : String
  value : Value

/-- A form and the program behind it. -/
structure FormHost where
  program : State
  view : FormView
  /-- The edits that the program has not seen yet, in order. -/
  pending : List Edit := []
  /-- Whether an event is being dispatched. -/
  busy : Bool := false

/-- Why an event was not handled. -/
inductive DispatchError where
  /-- Another event is being dispatched. -/
  | reentrant
  /-- The handler ended without a result. -/
  | halted (reason : Halt)

/-- What became of an event. -/
structure Dispatched (α : Type) where
  handled : Bool
  error : Option DispatchError := none
  /-- What the observer made of the effects, in order. -/
  observed : List α := []

namespace FormHost

/-- The text that says that an event was refused. -/
def reentrantMessage : String := "host: dispatch already in progress"

/-- Create the form, and show what the program has done so far. -/
def create (run : Runner) (form : String) (program : State) : Except (Halt × State) FormHost :=
  match run.defaultInstance form program with
  | .ok _ program =>
    .ok { program := { program with effects := #[] }
          view := program.effects.foldl FormView.apply { form } }
  | .error e program => .error (e, program)

/-- Note an edit of the user. -/
def edit (h : FormHost) (control property : String) (value : Value) : FormHost :=
  { h with
    pending := h.pending ++ [{ control, property, value }]
    view := h.view.setProperty control property value }

/-- The path by which the program knows a control: a field of the form if there is one. -/
def objectPath (h : FormHost) (control : String) : String :=
  let form := h.view.form
  if Text.equalFold control form then form
  else match h.program.scopes.lookup? form with
    | some (.object r) =>
      if (h.program.heap.get? r control).isSome then form ++ "." ++ control else control
    | _ => control

/-- Push an edit into the program. -/
def push (h : FormHost) (e : Edit) : FormHost :=
  { h with program := h.program.setProperty (h.objectPath e.control) e.property e.value }

/-- Push all pending edits into the program, in order. -/
def sync (h : FormHost) : FormHost :=
  h.pending.foldl push { h with pending := [] }

/-- Apply effects in order. The observer sees the host after each of them, and may act on it. -/
def applyAll (observe : Effect → FormHost → α × FormHost) :
    List Effect → FormHost → List α × FormHost
  | [], h => ([], h)
  | e :: es, h =>
    let (a, h) := observe e { h with view := h.view.apply e }
    let (as, h) := applyAll observe es h
    (a :: as, h)

/-- Dispatch an event: push the edits, run the handler, and apply the effects it queued, also when
it fails. -/
def dispatch (run : Runner) (observe : Effect → FormHost → α × FormHost) (h : FormHost)
    (control event : String) (args : List Value) : Dispatched α × FormHost :=
  if h.busy then ({ handled := false, error := some .reentrant }, h)
  else
    let h := sync { h with busy := true }
    let (handled, error, program) : Bool × Option DispatchError × State :=
      match run.dispatch h.view.form control event args h.program with
      | .ok handled program => (handled, none, program)
      | .error e program => (true, some (.halted e), program)
    let (observed, h) := applyAll observe program.effects.toList
      { h with program := { program with effects := #[] } }
    ({ handled, error, observed }, { h with busy := false })

/-- Raise the `Load` event of the form. -/
def start (run : Runner) (observe : Effect → FormHost → α × FormHost) (h : FormHost) :
    Dispatched α × FormHost :=
  h.dispatch run observe h.view.form "Load" []

end FormHost

end FormBasic
