import Bindery.Proofs.Target.Bundle
import Bindery.Proofs.Target.Composition
import Bindery.Proofs.Target.SourceStyle
import Bindery.Target.Builtin.All

/-
  This file says which source file is generated for Go, letter by
  letter: it has one type for every qualified name.

  Key definitions include:
    * `fieldLine`
    * `style`

  Key theorems include:
    * `execStmt_typeStmt`
    * `execAll_source`
    * `outcome_generate`
-/

namespace Bindery.Builtin.Golang

open Template

------------------------------------------------------------
-- Source File
------------------------------------------------------------

/- How the file starts. -/
def preface : String :=
  "// Code generated by declgen. DO NOT EDIT.\n\npackage koinos"

/- The comment on the name of a type. -/
def comment (name : String) : String :=
  "\n\n// " ++ identifierOf name ++ " is declared as " ++ name ++ "."

/- The name of a field in its struct. -/
def fieldName (name : String) : String :=
  String.ofList (Text.title name.toList)

/- The line of a field with a name and a type. -/
def fieldLine (field : Value) : String :=
  "\n\t" ++ fieldName (field.part "name").display ++ " " ++
    identifierOf (field.part "type").display

/- The definition of a type with some fields. -/
def structText (fields : List Value) : String :=
  " struct \x7b" ++ String.join (fields.map fieldLine) ++ "\n\x7d"

/- The keyword and the definition for a form. -/
def define : Form → Except TemplateError (String × String)
| .record fields =>
    fields.elements.map fun items => ("type", structText items)
| .choice _ =>
    .ok ("type", " struct \x7b\n\tValue interface\x7b\x7d\n\x7d")
| .unspecified => .ok ("type", " = Opaque")

/- How the source file is written. -/
def style : SourceStyle :=
  ⟨preface, comment, define⟩

------------------------------------------------------------
-- Template
------------------------------------------------------------

/- The comment on the name at hand. -/
def commentStmts : List Stmt :=
  [.text "\n\n// ", .emit (flatExpr (.name "name")),
    .text " is declared as ", .emit (.name "name"), .text "."]

/- The line of the field at hand. -/
def fieldStmts : List Stmt :=
  [.text "\n\t",
    .emit (.filter "title" (.attribute (.name "field") "name") [] []),
    .text " ",
    .emit (flatExpr (.attribute (.name "field") "type"))]

/- The statement that goes through the fields of a body. -/
def fieldLoop : Stmt :=
  .loop (.name "field") (.attribute (.name "decl") "fields") none
    fieldStmts []

/- The statement that writes the type at hand. -/
def typeStmt : Stmt :=
  .cond
    (.test "defined" (.attribute (.name "decl") "fields") [] [])
    (startStmts "type" ++
      [.text " struct \x7b", fieldLoop, .text "\n\x7d"])
    [.cond
      (.test "defined" (.attribute (.name "decl") "variants") [] [])
      (startStmts "type" ++
        [.text " struct \x7b\n\tValue interface\x7b\x7d\n\x7d"])
      (startStmts "type" ++ [.text " = Opaque"])]

set_option maxRecDepth 20000 in
theorem ofTemplate_template :
    Stmt.ofTemplate template =
      .ok (style.sourceStmts commentStmts typeStmt) := by
  simp only [Stmt.ofTemplate, Token.ofTemplate, template, ofLines,
    String.join, List.map, List.foldl, String.toList_append,
    String.toList_empty]
  simp only [String.reduceToList, List.cons_append, List.nil_append,
    List.length]
  rfl

section Types

variable {setting : Setting} {scope : Scope} {name : String}
variable {body : Json}

theorem execAll_commentStmts
    (hMode : setting.mode = .verbatim)
    (hName : setting.globals.lookup scope "name" = .plain name) :
    execAll setting commentStmts scope = .ok (comment name, scope) := by
  have hFlat := evalExpr_flatName hName
  simp [commentStmts, execAll, hFlat, execStmt, evalExpr, hName, hMode,
    comment, Bind.bind, Except.bind, String.append_assoc]

theorem execAll_fieldStmts
    {field : Value}
    (hMode : setting.mode = .verbatim)
    (hField : setting.globals.lookup scope "field" = field)
    (hDefined : field ≠ .undefined) :
    execAll setting fieldStmts scope = .ok (fieldLine field, scope) := by
  have hType := evalExpr_flatExpr (evalExpr_part hField hDefined "type")
  have hName : evalExpr setting.globals scope
      (.filter "title" (.attribute (.name "field") "name") [] []) =
        .ok (.plain (fieldName (field.part "name").display)) := by
    rw [evalExpr, evalExpr_part hField hDefined "name"]
    rfl
  simp [fieldStmts, execAll, execStmt, hType, hName, hMode, fieldLine,
    Bind.bind, Except.bind, String.append_assoc]

/- One line for each field. -/
theorem execStmt_fieldLoop
    (hMode : setting.mode = .verbatim)
    (hDecl : setting.globals.lookup scope "decl" = .ofJson body) :
    execStmt setting fieldLoop scope =
      (((Value.ofJson body).part "fields").elements.map
        fun items => String.join (items.map fieldLine)).map
        fun text => (text, scope) :=
  execStmt_lines hDecl (by decide)
    fun _ hDefined _ hField => execAll_fieldStmts hMode hField hDefined

/- A type is written by the form of its body. -/
theorem execStmt_typeStmt
    (hMode : setting.mode = .verbatim)
    (hName : setting.globals.lookup scope "name" = .plain name)
    (hDecl : setting.globals.lookup scope "decl" = .ofJson body) :
    execStmt setting typeStmt scope =
      ((style.typeOf (name, body)).map TypeDecl.text).map
        fun text => (text, scope) := by
  have hStart := execAll_startStmts hMode hName "type"
  rw [typeStmt, execStmt_form hDecl, SourceStyle.typeOf]
  rcases Form.ofBody_cases body with hForm | hForm | hForm
  · have hFields := execStmt_fieldLoop hMode hDecl
    simp only [hForm]
    rw [execAll_append_of_ok hStart, execAll_enclosed hFields]
    change _ = (((((Value.ofJson body).part "fields").elements.map
      fun items => ("type", structText items)).map _).map _).map _
    cases ((Value.ofJson body).part "fields").elements <;> rfl
  · simp only [hForm]
    rw [execAll_append_of_ok hStart, execAll_singleton]
    rfl
  · simp only [hForm]
    rw [execAll_append_of_ok hStart, execAll_singleton]
    rfl

/- The source file, if its template is run. -/
theorem execAll_source
    {schema : Schema}
    (hMode : setting.mode = .verbatim)
    (hGlobals : setting.globals =
      (RenderContext.ofSchema schema).globals) :
    execAll setting (style.sourceStmts commentStmts typeStmt)
        [Frame.empty] =
      ((style.typesOf schema).map style.sourceText).map
        fun text => (text, [Frame.empty]) :=
  SourceStyle.execAll_source hGlobals
    (fun _ _ => execAll_commentStmts hMode)
    (fun _ _ _ => execStmt_typeStmt hMode)

end Types

------------------------------------------------------------
-- Generation
------------------------------------------------------------

section Generation

variable {schema : Schema}

theorem templates_names :
    target.toTarget.templates.names = ["koinos.go.j2"] := rfl

theorem artifactPath_source :
    artifactPath "koinos.go.j2" = "koinos.go" := by
  decide +kernel

theorem renderOne_source (schema : Schema) :
    target.toTarget.templates.renderOne Builtin.fileSystem
        (RenderContext.ofSchema schema).globals "koinos.go.j2" =
      ((style.typesOf schema).map style.sourceText).mapError
        (target.toTarget.templates.errorOf "koinos.go.j2") := by
  have hLoad := @loadTemplate_of_stat Builtin.fileSystem
    "koinos.go.j2" target.toTarget.templates.directory
    "$SRC/declgen-codegen-golang/templates/koinos.go.j2"
    template (by decide +kernel) rfl
  rw [ofTemplate_template] at hLoad
  exact renderOne_of_execAll hLoad fun _ => execAll_source rfl rfl

/- The support files for Go are always the same. -/
theorem support_eq :
    target.toTarget.support Builtin.fileSystem =
      .ok (ArtifactSet.ofList [("rt/basetypes.go", basetypes)]) := by
  rw [TemplateTarget.support_of_runtime rfl]
  exact @bundleRuntime_of_texts _ _ _ [("basetypes.go", basetypes)]
    rfl rfl (List.forall_mem_singleton.mpr rfl)

/-
  Generating for Go fails exactly if some fields cannot be gone
  through; otherwise there are the source file and the support
  files.
-/
theorem outcome_generate (fs : FileSystem) (schema : Schema) :
    (target.generate fs schema).outcome =
      match style.typesOf schema with
      | .ok types =>
          .ok ⟨ArtifactSet.ofList
              [("koinos.go", style.sourceText types),
                ("rt/basetypes.go", basetypes)],
            "koinos.go"⟩
      | .error cause =>
          .error (target.toTarget.templates.errorOf
            "koinos.go.j2" cause) := by
  have hSource := renderOne_source schema
  rw [BuiltinTarget.generate, TemplateTarget.outcome_generate,
    templates_names, TemplateTarget.globalsOf, support_eq]
  cases hTypes : style.typesOf schema with
  | error cause =>
      rw [hTypes] at hSource
      rw [TemplateSet.outcome_renderFrom_cons_of_error hSource]
      rfl
  | ok types =>
      rw [hTypes] at hSource
      rw [TemplateSet.outcome_renderFrom_cons_of_ok hSource,
        artifactPath_source]
      rfl

end Generation

end Bindery.Builtin.Golang
