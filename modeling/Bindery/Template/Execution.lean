import Bindery.Template.Escape
import Bindery.Template.Evaluation

/-
  This file defines the output of templates.

  A loop has a frame of its own for all its rounds; conditions
  and included templates share the frame around them.

  Key definitions include:
    * `Setting`
    * `assignTo`
    * `runLoop`
    * `execStmt`
    * `execAll`
-/

namespace Bindery.Template

/- The output of a piece of a template and the variables after it. -/
abbrev Output :=
  Except TemplateError (String × Scope)

/- How a template is included by name, if it is found. -/
abbrev Inclusion :=
  String → Scope → Except TemplateError (Option (String × Scope))

/- What a template is run with. -/
structure Setting where
  globals : Globals
  mode : EscapeMode
  inclusion : Inclusion

------------------------------------------------------------
-- Assignments
------------------------------------------------------------

/- The elements that a value is unpacked to. -/
def unpack
    (count : Nat)
    (value : Value) : Except TemplateError (List Value) :=
  match value.objectElements? with
  | some values =>
      if values.length = count then .ok values else .error .cannotUnpack
  | none => .error .cannotUnpack

mutual

/- Assign a value to a target; attributes cannot be assigned. -/
def assignTo
    (globals : Globals) :
    Target → Value → Scope → Except TemplateError Scope
| .name word, value, scope => .ok (scope.assign word value)
| .tuple targets, value, scope => do
    let values ← unpack targets.length value
    assignAll globals targets values scope
| .attribute subject _, _, scope => do
    let _ ← evalExpr globals scope subject
    .error .invalidOperation

/- Assign values to targets in order. -/
def assignAll
    (globals : Globals) :
    List Target → List Value → Scope → Except TemplateError Scope
| target :: targets, value :: values, scope => do
    let scope ← assignTo globals target value scope
    assignAll globals targets values scope
| _, _, scope => .ok scope

end

------------------------------------------------------------
-- Loops
------------------------------------------------------------

/- The elements for which a condition holds. -/
def keepWhere
    (bind : Value → Scope → Except TemplateError Scope)
    (holds : Scope → Except TemplateError Value) :
    List Value → Scope → Except TemplateError (List Value)
| [], _ => .ok []
| item :: rest, scope => do
    let scope ← bind item scope
    let kept ← holds scope
    let others ← keepWhere bind holds rest scope
    .ok (if kept.isTrue then item :: others else others)

/-
  Run a body once for every element, from the element at an
  index on.  `length` counts all elements.
-/
def runLoop
    (bind : Value → Scope → Except TemplateError Scope)
    (run : Scope → Output)
    (length : Nat) :
    Nat → Value → List Value → Scope → Output
| _, _, [], scope => .ok ("", scope)
| index, previous, item :: rest, scope => do
    let next := rest.head?.getD .undefined
    let scope ←
      bind item (scope.setLoop (loopValue index length previous next))
    let (output, scope) ← run scope
    let (others, scope) ←
      runLoop bind run length (index + 1) item rest scope
    .ok (output ++ others, scope)

------------------------------------------------------------
-- Inclusions
------------------------------------------------------------

/- The names of the templates that an inclusion chooses from. -/
def choices (value : Value) : List Value :=
  value.objectElements?.getD [value]

/- Include the first template that is found. -/
def includeFirst
    (inclusion : Inclusion)
    (ignoreMissing : Bool) : List Value → Scope → Output
| [], scope => .ok ("", scope)
| .text name _ :: rest, scope => do
    match ← inclusion name scope with
    | some result => .ok result
    | none =>
        if !rest.isEmpty then
          includeFirst inclusion ignoreMissing rest scope
        else if ignoreMissing then .ok ("", scope)
        else .error .notFound
| _, _ => .error .invalidOperation

------------------------------------------------------------
-- Statements
------------------------------------------------------------

mutual

/- The output of a statement. -/
def execStmt (setting : Setting) : Stmt → Scope → Output
| .text s, scope => .ok (s, scope)
| .emit expr, scope => do
    let value ← evalExpr setting.globals scope expr
    let output ← setting.mode.write value
    .ok (output, scope)
| .cond test yes no, scope => do
    let value ← evalExpr setting.globals scope test
    if value.isTrue then execAll setting yes scope
    else execAll setting no scope
| .loop target source guard body orElse, scope => do
    let value ← evalExpr setting.globals scope source
    let items ← value.elements
    let bind := assignTo setting.globals target
    let items ←
      match guard with
      | some test =>
          keepWhere bind (fun inner => evalExpr setting.globals inner test)
            items (Frame.empty :: scope)
      | none => .ok items
    if items.isEmpty then execAll setting orElse scope
    else do
      let (output, inner) ←
        runLoop bind (execAll setting body) items.length 0 .undefined
          items (Frame.empty :: scope)
      .ok (output, inner.tail)
| .assign target expr, scope => do
    let value ← evalExpr setting.globals scope expr
    let scope ← assignTo setting.globals target value scope
    .ok ("", scope)
| .capture target body, scope => do
    let (output, scope) ← execAll setting body scope
    let scope ←
      assignTo setting.globals target (setting.mode.captured output) scope
    .ok ("", scope)
| .embed templates ignoreMissing, scope => do
    let value ← evalExpr setting.globals scope templates
    includeFirst setting.inclusion ignoreMissing (choices value) scope

/- The output of statements in order. -/
def execAll (setting : Setting) : List Stmt → Scope → Output
| [], scope => .ok ("", scope)
| stmt :: rest, scope => do
    let (output, scope) ← execStmt setting stmt scope
    let (others, scope) ← execAll setting rest scope
    .ok (output ++ others, scope)

end

------------------------------------------------------------
-- Templates
------------------------------------------------------------

/- Why a template has no statements, or its statements. -/
abbrev Loader :=
  String → Except TemplateError (List Stmt)

/- How much an inclusion adds to the depth of a template. -/
def inclusionCost : Nat :=
  10

/- How deep frames and inclusions may be nested. -/
def maxDepth : Nat :=
  500

/-
  Include a template in which others may be included as often
  as `left` says; `depth` is what the inclusions around it add.
-/
def includeTemplate
    (loader : Loader)
    (globals : Globals) : Nat → Nat → Inclusion
| left, depth, name, scope =>
    match loader name with
    | .error .notFound => .ok none
    | .error e => .error e
    | .ok stmts =>
        let depth := depth + inclusionCost
        match left with
        | 0 => .error .invalidOperation
        | left + 1 =>
            if maxDepth < depth + scope.length then
              .error .invalidOperation
            else
              let inner := includeTemplate loader globals left depth
              match execAll ⟨globals, EscapeMode.ofName name, inner⟩
                  stmts scope with
              | .ok result => .ok (some result)
              | .error _ => .error .badInclude

/- The output of a template. -/
def runTemplate
    (loader : Loader)
    (globals : Globals)
    (name : String) : Except TemplateError String := do
  let stmts ← loader name
  let inclusion :=
    includeTemplate loader globals (maxDepth / inclusionCost) 0
  let (output, _) ←
    execAll ⟨globals, EscapeMode.ofName name, inclusion⟩ stmts
      [Frame.empty]
  .ok output

end Bindery.Template
