import Bindery.Proofs.Files.Destination
import Bindery.Proofs.Template.Execution
import Bindery.Target.TemplateSet

/-
  This file is about what the templates of targets have in
  common: they go through the declarations by name, and each
  declaration is written by the form of its body.  Then they are
  rendered to what their statements give.

  Key definitions include:
    * `Form`
    * `Form.ofBody`

  Key theorems include:
    * `execStmt_form`
    * `execStmt_declarations`
    * `execAll_declarations`
    * `execStmt_parts_orElse`
    * `execStmt_parts`
    * `execStmt_lines`
    * `loadTemplate_of_stat`
    * `renderOne_of_execAll`
-/

namespace Bindery

open Template

------------------------------------------------------------
-- Forms
------------------------------------------------------------

/- What a body describes: fields, variants, or nothing known. -/
inductive Form where
| record (fields : Value)
| choice (variants : Value)
| unspecified

/- The form of a body; fields count more than variants. -/
def Form.ofBody (body : Json) : Form :=
  match (Value.ofJson body).part "fields" with
  | .undefined =>
      match (Value.ofJson body).part "variants" with
      | .undefined => .unspecified
      | variants => .choice variants
  | fields => .record fields

/- The form of a body says which part of it counts. -/
theorem Form.ofBody_cases (body : Json) :
    ofBody body = .record ((Value.ofJson body).part "fields") ∨
      ofBody body = .choice ((Value.ofJson body).part "variants") ∨
      ofBody body = .unspecified := by
  rw [ofBody]
  cases (Value.ofJson body).part "fields" with
  | undefined =>
      cases (Value.ofJson body).part "variants" with
      | undefined => exact Or.inr (Or.inr rfl)
      | _ => exact Or.inr (Or.inl rfl)
  | _ => exact Or.inl rfl

------------------------------------------------------------
-- Variables
------------------------------------------------------------

section Variables

variable {c : RenderContext} {setting : Setting}
variable {scope : Scope} {word : String} {value : Value}

theorem lookup_declsByName (c : RenderContext) :
    c.globals.lookup [Frame.empty] "decls_by_name" =
      Value.ofJson (.object c.declsByName) := rfl

theorem lookup_declNamespaces (c : RenderContext) :
    c.globals.lookup [Frame.empty] "decl_namespaces" =
      Value.ofJson (.array (c.declNamespaces.map Json.text)) := rfl

theorem lookup_schema (c : RenderContext) :
    c.globals.lookup [Frame.empty] "schema" =
      Value.ofJson c.schema.toJson := rfl

/- A part of what a variable stands for. -/
theorem evalExpr_part
    {globals : Globals}
    (hWord : globals.lookup scope word = value)
    (hDefined : value ≠ .undefined)
    (key : String) :
    evalExpr globals scope (.attribute (.name word) key) =
      .ok (value.part key) := by
  rw [evalExpr, evalExpr, hWord]
  exact Value.partOf_attribute? hDefined key

/- Whether a part of a body is there. -/
theorem evalExpr_isDefined
    {globals : Globals}
    {body : Json}
    (hDecl : globals.lookup scope "decl" = Value.ofJson body)
    (word : String) :
    evalExpr globals scope
        (.test "defined" (.attribute (.name "decl") word) [] []) =
      .ok (.bool (!isUndefined ((Value.ofJson body).part word))) := by
  have hPart := evalExpr_part hDecl (Value.ofJson_ne_undefined body) word
  rw [evalExpr, hPart]
  rfl

/- A body is written by its form. -/
theorem execStmt_form
    {body : Json}
    {record choice unspecified : List Stmt}
    (hDecl : setting.globals.lookup scope "decl" = Value.ofJson body) :
    execStmt setting
        (.cond
          (.test "defined" (.attribute (.name "decl") "fields") [] [])
          record
          [.cond
            (.test "defined" (.attribute (.name "decl") "variants") [] [])
            choice unspecified])
        scope =
      match Form.ofBody body with
      | .record _ => execAll setting record scope
      | .choice _ => execAll setting choice scope
      | .unspecified => execAll setting unspecified scope := by
  rw [execStmt, evalExpr_isDefined hDecl, Form.ofBody]
  cases (Value.ofJson body).part "fields" with
  | undefined =>
      change execAll setting [_] scope = _
      rw [execAll_singleton, execStmt, evalExpr_isDefined hDecl]
      cases (Value.ofJson body).part "variants" <;> rfl
  | _ => rfl

end Variables

------------------------------------------------------------
-- Declarations
------------------------------------------------------------

section Declarations

variable {c : RenderContext} {setting : Setting}
variable {names : List String} {body : List Stmt}
variable {text : String × Json → Except TemplateError String}

/-
  A loop over the declarations by name gives what its body gives
  for each of them, when their names and bodies are known.
-/
theorem execStmt_declarations
    (hGlobals : setting.globals = c.globals)
    (hName : "name" ∈ names)
    (hDecl : "decl" ∈ names)
    (hBody : ∀ entry ∈ c.declsByName, ∀ frame : Frame,
      frame.Only names →
      setting.globals.lookup [frame, Frame.empty] "name" =
        .plain entry.1 →
      setting.globals.lookup [frame, Frame.empty] "decl" =
        Value.ofJson entry.2 →
      Gives names [Frame.empty]
        (execAll setting body [frame, Frame.empty])
        (text entry)) :
    execStmt setting
        (.loop (.tuple [.name "name", .name "decl"])
          (.filter "items" (.name "decls_by_name") [] [])
          none body [])
        [Frame.empty] =
      (joinEach text c.declsByName).map
        fun text => (text, [Frame.empty]) := by
  have hSource : evalExpr setting.globals [Frame.empty]
      (.filter "items" (.name "decls_by_name") [] []) =
        itemsOf (.ofJson (.object c.declsByName)) := by
    rw [hGlobals, evalExpr, evalExpr, lookup_declsByName]
    rfl
  rw [Value.itemsOf_ofJson_object] at hSource
  refine @execStmt_loop _ names _ _ _ _ _ _ _ _ _ hSource rfl ?_
  intro entry hEntry frame hFrame
  let named := frame.put "name" (.plain entry.1)
  have hBound := (hFrame.put hName (.plain entry.1)).put hDecl
    (Value.ofJson entry.2)
  have hNamed := Globals.lookup_put setting.globals frame [Frame.empty]
    (.plain entry.1) (show "name" ≠ "loop" by decide)
  have hKept := Globals.lookup_put_of_ne setting.globals named [Frame.empty]
    (Value.ofJson entry.2) (show "name" ≠ "decl" by decide) (by decide)
  exact hBody entry hEntry _ hBound (hKept.trans hNamed)
    (Globals.lookup_put _ _ _ _ (by decide))

/-
  A template with such a loop between two texts gives what is
  made of the declarations by name.
-/
theorem execAll_declarations
    {α : Type}
    {make : String × Json → Except TemplateError α}
    {write : α → String}
    (hGlobals : setting.globals = c.globals)
    (hName : "name" ∈ names)
    (hDecl : "decl" ∈ names)
    (hBody : ∀ entry ∈ c.declsByName, ∀ frame : Frame,
      frame.Only names →
      setting.globals.lookup [frame, Frame.empty] "name" =
        .plain entry.1 →
      setting.globals.lookup [frame, Frame.empty] "decl" =
        Value.ofJson entry.2 →
      Gives names [Frame.empty]
        (execAll setting body [frame, Frame.empty])
        ((make entry).map write))
    (before after : String) :
    execAll setting
        [.text before,
          .loop (.tuple [.name "name", .name "decl"])
            (.filter "items" (.name "decls_by_name") [] [])
            none body [],
          .text after]
        [Frame.empty] =
      ((c.declsByName.mapM make).map fun made =>
        before ++ String.join (made.map write) ++ after).map
        fun text => (text, [Frame.empty]) := by
  have hLoop := execStmt_declarations hGlobals hName hDecl hBody
  rw [joinEach_map] at hLoop
  rw [execAll_enclosed hLoop]
  cases c.declsByName.mapM make <;> rfl

/-
  A loop over a part of a body gives a line for each element, or
  what is there for the case that there are none.
-/
theorem execStmt_parts_orElse
    {decl : Json}
    {scope : Scope}
    {word key : String}
    {orElse : List Stmt}
    {line : Value → Except TemplateError String}
    (hDecl : setting.globals.lookup scope "decl" = Value.ofJson decl)
    (hWord : word ≠ "loop")
    (hLine : ∀ element ≠ .undefined, ∀ inner : Scope,
      setting.globals.lookup inner word = element →
      execAll setting body inner =
        (line element).map fun text => (text, inner)) :
    execStmt setting
        (.loop (.name word) (.attribute (.name "decl") key) none body
          orElse)
        scope =
      (do
        let items ← ((Value.ofJson decl).part key).elements
        if items.isEmpty then execAll setting orElse scope
        else (joinEach line items).map fun text => (text, scope)) := by
  have hSource := evalExpr_part hDecl (Value.ofJson_ne_undefined decl) key
  refine @execStmt_loop_elements [word] scope setting (.name word) _ body
    orElse _ line hSource fun items hItems item hItem frame hFrame => ?_
  have hBound := hFrame.put (List.mem_singleton_self _) item
  have hLookup := Globals.lookup_put setting.globals frame scope item hWord
  exact Gives.of_eq hBound (hLine item
    (Value.ne_undefined_of_mem_part hItems hItem) _ hLookup)

/- A loop over a part of a body gives a line for each element. -/
theorem execStmt_parts
    {decl : Json}
    {scope : Scope}
    {word key : String}
    {line : Value → Except TemplateError String}
    (hDecl : setting.globals.lookup scope "decl" = Value.ofJson decl)
    (hWord : word ≠ "loop")
    (hLine : ∀ element ≠ .undefined, ∀ inner : Scope,
      setting.globals.lookup inner word = element →
      execAll setting body inner =
        (line element).map fun text => (text, inner)) :
    execStmt setting
        (.loop (.name word) (.attribute (.name "decl") key) none body [])
        scope =
      (do
        let items ← ((Value.ofJson decl).part key).elements
        joinEach line items).map fun text => (text, scope) := by
  rw [execStmt_parts_orElse hDecl hWord hLine]
  cases ((Value.ofJson decl).part key).elements with
  | error e => rfl
  | ok items => cases items <;> rfl

/- Lines that can all be written stand one after the other. -/
theorem execStmt_lines
    {decl : Json}
    {scope : Scope}
    {word key : String}
    {line : Value → String}
    (hDecl : setting.globals.lookup scope "decl" = Value.ofJson decl)
    (hWord : word ≠ "loop")
    (hLine : ∀ element ≠ .undefined, ∀ inner : Scope,
      setting.globals.lookup inner word = element →
      execAll setting body inner = .ok (line element, inner)) :
    execStmt setting
        (.loop (.name word) (.attribute (.name "decl") key) none body [])
        scope =
      (((Value.ofJson decl).part key).elements.map
        fun items => String.join (items.map line)).map
        fun text => (text, scope) := by
  rw [@execStmt_parts _ _ _ _ _ _ (fun element => .ok (line element))
    hDecl hWord hLine]
  cases ((Value.ofJson decl).part key).elements with
  | error e => rfl
  | ok items => exact congrArg _ (joinEach_ok line items)

end Declarations

------------------------------------------------------------
-- Rendering
------------------------------------------------------------

section Rendering

variable {fs : FileSystem} {set : TemplateSet} {name : String}

/- A template is read from the file at its place. -/
theorem loadTemplate_of_stat
    {directory path text : String}
    (hPath : templatePath? directory name = some path)
    (hFile : fs.stat path = .ok (.file text.toUTF8)) :
    loadTemplate fs directory name = Stmt.ofTemplate text := by
  rw [loadTemplate, templateText, hPath]
  simp only [FileSystem.readText_of_stat hFile]
  rfl

/- A template is rendered to what its statements give. -/
theorem renderOne_of_execAll
    {globals : Globals}
    {stmts : List Stmt}
    {text : Except TemplateError String}
    (hLoad : loadTemplate fs set.directory name = .ok stmts)
    (hRun : ∀ inclusion,
      execAll ⟨globals, EscapeMode.ofName name, inclusion⟩ stmts
          [Frame.empty] =
        text.map fun text => (text, [Frame.empty])) :
    set.renderOne fs globals name = text.mapError (set.errorOf name) := by
  have hOutput : runTemplate (loadTemplate fs set.directory) globals
      name = text := by
    simp only [runTemplate, hLoad, Bind.bind, Except.bind, hRun]
    cases text <;> rfl
  rw [TemplateSet.renderOne, hOutput]
  cases text <;> rfl

end Rendering

end Bindery
