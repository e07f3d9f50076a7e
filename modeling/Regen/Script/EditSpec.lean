import Regen.Edit
import Regen.Script.StageSpec

/-!
# Edits and their handlers in scripts

The edits of scripts are either added inputs or custom edits with a document as their content. A
handler is a list of actions on the outputs of its generator; an action may depend on a test of a
part of the edit.
-/

namespace Regen.Script

/-- The names of the two types of edits. -/
structure EditTypes where
  inputAdded : String
  custom : String

/-- Use the ambience of plug-ins from the handler of an edit. -/
def onEdit {α : Type} (callback : Callback Notebook α) :
    EditProgram Notebook α :=
  callback.embed fun request => .request (I := Editing.interface Notebook)
    (Editing.Request.ambient request)

/-- What a handler does in one step. -/
inductive EditStep where
  | addOutput (output : OutputSpec) (ignoreError : Bool)
  | replaceOutput (output : OutputSpec)
  | removeOutput (hint : Template)
  | reject (message : String)
  | fail (error : EngineError)
  | panic (panic : Panic)
  | observe
  | pass

/-- A step of a handler, taken if a part of the edit passes the test. -/
structure EditAction where
  guard : Option (Path × Test)
  step : EditStep

namespace EditAction

def stepOfJson (json : Json) : EditStep :=
  match (json.get "do").asStr with
  | "add_output" => .addOutput (OutputSpec.ofJson json) (json.get "ignore").isTrue
  | "replace_output" => .replaceOutput (OutputSpec.ofJson json)
  | "remove_output" => .removeOutput (Template.ofJson (json.get "hint"))
  | "reject" => .reject (json.get "message").asStr
  | "fail" => .fail ((EngineError.ofDetails? (json.get "error")).getD .cancelled)
  | "panic" => .panic (Panic.ofDetails json)
  | "observe" => .observe
  | _ => .pass

def ofJson (json : Json) : EditAction :=
  let guard := match json.get "test" with
    | .null => none
    | test => some (Path.ofJson (json.get "at"), Test.ofJson test)
  ⟨guard, stepOfJson json⟩

def applies (action : EditAction) (json : Json) : Bool :=
  match action.guard with
  | none => true
  | some (path, test) => test.holds (path.lookup json)

/-- Note an answer of the engine under a label. -/
def noteAnswer (label : String) (answer : Bool) : EditProgram Notebook Unit :=
  onEdit (note (.arr [.str label, .bool answer]))

def take (step : EditStep) (context : EditContext) (json : Json) : EditProgram Notebook Unit :=
  match step with
  | .addOutput output ignoreError =>
    .ask (Editing.Request.addOutput (output.output json)) fun
      | .ok _ => .done ()
      | .error error => if ignoreError then onEdit (note error.toJson) else Program.fail error
  | .replaceOutput output =>
    .ask (Editing.Request.replaceOutput (output.output json)) (noteAnswer "replaced")
  | .removeOutput hint =>
    .ask (Editing.Request.removeOutput (hint.render json)) (noteAnswer "removed")
  | .reject message => Program.fail (context.reject message)
  | .fail error => Program.fail error
  | .panic panic => Program.panic panic
  | .observe =>
    .ask Editing.Request.outputs fun outputs =>
      onEdit (note (.arr [.str "observe", .str context.generator,
        .arr (context.additionalInputs.map AdditionalInput.toJson),
        .arr (outputs.map GeneratedOutput.toJson)]))
  | .pass => .done ()

def takeAll (context : EditContext) (json : Json) : List EditAction → EditProgram Notebook Unit
  | [] => .done ()
  | action :: rest =>
    if action.applies json then do
      take action.step context json
      takeAll context json rest
    else takeAll context json rest

end EditAction

/-- A handler for the edits of one kind. -/
structure HandlerSpec where
  kind : String
  expectsInput : Bool
  actions : List EditAction

namespace HandlerSpec

def ofJson (json : Json) : HandlerSpec :=
  ⟨(json.get "kind").asStr, json.get "type" == .str "input",
    (json.get "actions").items.map EditAction.ofJson⟩

def handler (spec : HandlerSpec) (types : EditTypes) : EditHandler Notebook where
  accepts := if spec.expectsInput then types.inputAdded else types.custom
  handle := fun content context => EditAction.takeAll context content.toJson spec.actions

end HandlerSpec

/-- The inputs after a custom edit was committed: some are dropped by their paths, others are
appended. -/
def commitCustom (json : Json) (inputs : List AdditionalInput) : List AdditionalInput :=
  let dropped := (json.get "drop").items.map Json.asStr
  (inputs.filter fun input => !dropped.contains input.path) ++
    (json.get "append").items.map inputOfJson

def customEditOfJson (types : EditTypes) (json : Json) : Edit Notebook :=
  let edit : Edit Notebook := {
    kind := (json.get "kind").asStr
    typeName := types.custom
    content := .data (json.get "payload")
    commit := match json.get "commit" with
      | .obj fields => fun inputs => .ok (commitCustom (.obj fields) inputs)
      | _ => .ok }
  match json.get "accept" with
  | .bool accept => { edit with acceptedBy := fun _ => .ok accept }
  | _ => edit

def editOfJson (types : EditTypes) (json : Json) : Edit Notebook :=
  if json.get "type" == .str "input" then .inputAdded types.inputAdded (inputOfJson json)
  else customEditOfJson types json

end Regen.Script
