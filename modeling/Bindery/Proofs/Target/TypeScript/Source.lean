import Bindery.Proofs.Target.Bundle
import Bindery.Proofs.Target.Composition
import Bindery.Proofs.Target.SourceStyle
import Bindery.Target.Builtin.All

/-
  This file says which modules are generated for TypeScript,
  letter by letter: one has a type for every qualified name, the
  other one is always the same.

  Key definitions include:
    * `fieldLine`
    * `variantLine`
    * `style`

  Key theorems include:
    * `execStmt_fieldLoop`
    * `execStmt_variantLoop`
    * `execStmt_typeStmt`
    * `execAll_types`
    * `outcome_generate`
-/

namespace Bindery.Builtin.TypeScript

open Template

------------------------------------------------------------
-- Module with Types
------------------------------------------------------------

/- How the module starts. -/
def preface : String :=
  "// Code generated by declgen. DO NOT EDIT.\n\n" ++
    "import \x7b Opaque \x7d from \"./rt/Opaque\";\n" ++
    "import * as rt from \"./rt/basetypes\";"

/- The comment on a type. -/
def comment (name : String) : String :=
  "\n\n/** " ++ name ++ " */"

/- The type of a field, which is a basic one without a separator. -/
def fieldType (type : Value) : Except TemplateError String :=
  (type.contains (.plain "::")).map fun qualified =>
    if qualified then identifierOf type.display
    else "rt." ++ type.display

/- The line of a field with a name and a type. -/
def fieldLine (field : Value) : Except TemplateError String :=
  (fieldType (field.part "type")).map fun type =>
    "\n  " ++ (field.part "name").display ++ ": " ++ type ++ ";"

/- The line of an alternative. -/
def variantLine (variant : Value) : String :=
  "\n  | " ++ identifierOf variant.display

/- The definition of a type with the lines of fields. -/
def interfaceText (lines : String) : String :=
  " \x7b" ++ lines ++ "\n\x7d"

/- The definition of a type with some alternatives. -/
def unionText (variants : List Value) : String :=
  " =" ++
    (if variants.isEmpty then " never"
      else String.join (variants.map variantLine)) ++
    ";"

/- The keyword and the definition for a form. -/
def define : Form → Except TemplateError (String × String)
| .record fields => do
    let items ← fields.elements
    let lines ← joinEach fieldLine items
    .ok ("export interface", interfaceText lines)
| .choice variants =>
    variants.elements.map fun items => ("export type", unionText items)
| .unspecified => .ok ("export type", " = Opaque;")

/- How the module with types is written. -/
def style : SourceStyle :=
  ⟨preface, comment, define⟩

------------------------------------------------------------
-- Templates
------------------------------------------------------------

/- The comment on the name at hand. -/
def commentStmts : List Stmt :=
  [.text "\n\n/** ", .emit (.name "name"), .text " */"]

/- The type of the field at hand. -/
def fieldTypeExpr : Expr :=
  .attribute (.name "field") "type"

/- The statement that writes the type of the field at hand. -/
def fieldTypeStmt : Stmt :=
  .cond (.binary .isIn (.const (.plain "::")) fieldTypeExpr)
    [.emit (flatExpr fieldTypeExpr)]
    [.text "rt.", .emit fieldTypeExpr]

/- The line of the field at hand. -/
def fieldStmts : List Stmt :=
  [.text "\n  ", .emit (.attribute (.name "field") "name"),
    .text ": ", fieldTypeStmt, .text ";"]

/- The statement that goes through the fields of a body. -/
def fieldLoop : Stmt :=
  .loop (.name "field") (.attribute (.name "decl") "fields") none
    fieldStmts []

/- The statement that goes through the alternatives of a body. -/
def variantLoop : Stmt :=
  .loop (.name "variant") (.attribute (.name "decl") "variants") none
    [.text "\n  | ", .emit (flatExpr (.name "variant"))]
    [.text " never"]

/- The statement that writes the type at hand. -/
def typeStmt : Stmt :=
  .cond
    (.test "defined" (.attribute (.name "decl") "fields") [] [])
    (startStmts "export interface" ++
      [.text " \x7b", fieldLoop, .text "\n\x7d"])
    [.cond
      (.test "defined" (.attribute (.name "decl") "variants") [] [])
      (startStmts "export type" ++
        [.text " =", variantLoop, .text ";"])
      (startStmts "export type" ++ [.text " = Opaque;"])]

set_option maxRecDepth 20000 in
theorem ofTemplate_typesTemplate :
    Stmt.ofTemplate typesTemplate =
      .ok (style.sourceStmts commentStmts typeStmt) := by
  simp only [Stmt.ofTemplate, Token.ofTemplate, typesTemplate, ofLines,
    String.join, List.map, List.foldl, String.toList_append,
    String.toList_empty]
  simp only [String.reduceToList, List.cons_append, List.nil_append,
    List.length]
  rfl

set_option maxRecDepth 20000 in
theorem ofTemplate_indexTemplate :
    Stmt.ofTemplate indexTemplate = .ok [.text indexTemplate] := by
  simp only [Stmt.ofTemplate, Token.ofTemplate, indexTemplate, ofLines,
    String.join, List.map, List.foldl, String.toList_append,
    String.toList_empty]
  simp only [String.reduceToList, List.cons_append, List.nil_append,
    List.length]
  rfl

section Types

variable {setting : Setting} {scope : Scope} {name : String}
variable {body : Json}

theorem execAll_commentStmts
    (hMode : setting.mode = .verbatim)
    (hName : setting.globals.lookup scope "name" = .plain name) :
    execAll setting commentStmts scope = .ok (comment name, scope) := by
  simp [commentStmts, execAll, execStmt, evalExpr, hName, hMode,
    comment, Bind.bind, Except.bind, String.append_assoc]

theorem execStmt_fieldTypeStmt
    {field : Value}
    (hMode : setting.mode = .verbatim)
    (hField : setting.globals.lookup scope "field" = field)
    (hDefined : field ≠ .undefined) :
    execStmt setting fieldTypeStmt scope =
      (fieldType (field.part "type")).map fun text => (text, scope) := by
  have hType : evalExpr setting.globals scope fieldTypeExpr =
      .ok (field.part "type") :=
    evalExpr_part hField hDefined "type"
  have hTest : evalExpr setting.globals scope
      (.binary .isIn (.const (.plain "::")) fieldTypeExpr) =
        ((field.part "type").contains (.plain "::")).map Value.bool := by
    rw [evalExpr, evalExpr, hType]
    change (do
      let found ← (field.part "type").contains (.plain "::")
      .ok (Value.bool found)) = _
    cases (field.part "type").contains (.plain "::") <;> rfl
  rw [fieldTypeStmt, execStmt, hTest, fieldType]
  cases (field.part "type").contains (.plain "::") with
  | error e => rfl
  | ok found =>
      cases found with
      | true =>
          change execAll setting [.emit (flatExpr fieldTypeExpr)] scope = _
          rw [execAll_singleton, execStmt, evalExpr_flatExpr hType, hMode]
          rfl
      | false =>
          change execAll setting
            [.text "rt.", .emit fieldTypeExpr] scope = _
          rw [execAll_cons_of_ok (execStmt_text _ _ _),
            execAll_singleton, execStmt, hType]
          simp [hMode, Bind.bind, Except.bind, Except.map]

theorem execAll_fieldStmts
    {field : Value}
    (hMode : setting.mode = .verbatim)
    (hField : setting.globals.lookup scope "field" = field)
    (hDefined : field ≠ .undefined) :
    execAll setting fieldStmts scope =
      (fieldLine field).map fun text => (text, scope) := by
  have hName := evalExpr_part hField hDefined "name"
  have hType := execStmt_fieldTypeStmt hMode hField hDefined
  cases hText : fieldType (field.part "type") with
  | error e =>
      rw [hText] at hType
      simp [fieldStmts, execAll, execStmt, hType, hName, hMode, fieldLine,
        hText, Bind.bind, Except.bind, Except.map]
  | ok text =>
      rw [hText] at hType
      simp [fieldStmts, execAll, execStmt, hType, hName, hMode, fieldLine,
        hText, Bind.bind, Except.bind, Except.map, String.append_assoc]

/- One line for each field. -/
theorem execStmt_fieldLoop
    (hMode : setting.mode = .verbatim)
    (hDecl : setting.globals.lookup scope "decl" = .ofJson body) :
    execStmt setting fieldLoop scope =
      (do
        let items ← ((Value.ofJson body).part "fields").elements
        joinEach fieldLine items).map fun text => (text, scope) :=
  execStmt_parts hDecl (by decide)
    fun _ hDefined _ hField => execAll_fieldStmts hMode hField hDefined

/- One line for each alternative, or none at all. -/
theorem execStmt_variantLoop
    (hMode : setting.mode = .verbatim)
    (hDecl : setting.globals.lookup scope "decl" = .ofJson body) :
    execStmt setting variantLoop scope =
      (((Value.ofJson body).part "variants").elements.map fun items =>
        if items.isEmpty then " never"
        else String.join (items.map variantLine)).map
        fun text => (text, scope) := by
  have hLine : ∀ variant ≠ .undefined, ∀ inner : Scope,
      setting.globals.lookup inner "variant" = variant →
      execAll setting
          [.text "\n  | ", .emit (flatExpr (.name "variant"))] inner =
        (Except.ok (variantLine variant)).map
          fun text => (text, inner) := by
    intro variant _ inner hVariant
    have hFlat := @evalExpr_flatExpr inner (.name "variant") variant
      setting.globals (by rw [evalExpr, hVariant])
    rw [execAll_cons_of_ok (execStmt_text _ _ _), execAll_singleton,
      execStmt, hFlat, hMode]
    rfl
  rw [variantLoop, execStmt_parts_orElse hDecl (by decide) hLine]
  cases ((Value.ofJson body).part "variants").elements with
  | error e => rfl
  | ok items =>
      cases items with
      | nil => rfl
      | cons first rest =>
          change (joinEach (fun variant => .ok (variantLine variant))
            (first :: rest)).map _ = _
          rw [joinEach_ok]
          rfl

/- A type is written by the form of its body. -/
theorem execStmt_typeStmt
    (hMode : setting.mode = .verbatim)
    (hName : setting.globals.lookup scope "name" = .plain name)
    (hDecl : setting.globals.lookup scope "decl" = .ofJson body) :
    execStmt setting typeStmt scope =
      ((style.typeOf (name, body)).map TypeDecl.text).map
        fun text => (text, scope) := by
  have hStart := execAll_startStmts hMode hName
  rw [typeStmt, execStmt_form hDecl, SourceStyle.typeOf]
  rcases Form.ofBody_cases body with hForm | hForm | hForm
  · have hFields := execStmt_fieldLoop hMode hDecl
    simp only [hForm]
    rw [execAll_append_of_ok (hStart "export interface"),
      execAll_enclosed hFields]
    change _ = (Except.map _ (Except.map _ (do
      let items ← ((Value.ofJson body).part "fields").elements
      let lines ← joinEach fieldLine items
      .ok ("export interface", interfaceText lines)))).map _
    -- Fields that cannot be gone through and lines that cannot be
    -- written fail alike, so both are seen as one result.
    rw [← bind_assoc]
    generalize (do
      let items ← ((Value.ofJson body).part "fields").elements
      joinEach fieldLine items) = lines
    cases lines <;> rfl
  · have hVariants := execStmt_variantLoop hMode hDecl
    simp only [hForm]
    rw [execAll_append_of_ok (hStart "export type"),
      execAll_enclosed hVariants]
    change _ = (((((Value.ofJson body).part "variants").elements.map
      fun items => ("export type", unionText items)).map _).map _).map _
    cases ((Value.ofJson body).part "variants").elements <;> rfl
  · simp only [hForm]
    rw [execAll_append_of_ok (hStart "export type"), execAll_singleton]
    rfl

/- The module with types, if its template is run. -/
theorem execAll_types
    {schema : Schema}
    (hMode : setting.mode = .verbatim)
    (hGlobals : setting.globals =
      (RenderContext.ofSchema schema).globals) :
    execAll setting (style.sourceStmts commentStmts typeStmt)
        [Frame.empty] =
      ((style.typesOf schema).map style.sourceText).map
        fun text => (text, [Frame.empty]) :=
  SourceStyle.execAll_source hGlobals
    (fun _ _ => execAll_commentStmts hMode)
    (fun _ _ _ => execStmt_typeStmt hMode)

end Types

------------------------------------------------------------
-- Generation
------------------------------------------------------------

section Generation

variable {schema : Schema}

theorem templates_names :
    target.toTarget.templates.names =
      ["koinos.ts.j2", "index.ts.j2"] := rfl

theorem artifactPath_types :
    artifactPath "koinos.ts.j2" = "koinos.ts" := by
  decide +kernel

theorem artifactPath_index :
    artifactPath "index.ts.j2" = "index.ts" := by
  decide +kernel

theorem renderOne_types (schema : Schema) :
    target.toTarget.templates.renderOne Builtin.fileSystem
        (RenderContext.ofSchema schema).globals "koinos.ts.j2" =
      ((style.typesOf schema).map style.sourceText).mapError
        (target.toTarget.templates.errorOf "koinos.ts.j2") := by
  have hLoad := @loadTemplate_of_stat Builtin.fileSystem
    "koinos.ts.j2" target.toTarget.templates.directory
    "$SRC/declgen-codegen-typescript/templates/koinos.ts.j2"
    typesTemplate (by decide +kernel) rfl
  rw [ofTemplate_typesTemplate] at hLoad
  exact renderOne_of_execAll hLoad fun _ => execAll_types rfl rfl

/- The index does not depend on the schema. -/
theorem renderOne_index (globals : Globals) :
    target.toTarget.templates.renderOne Builtin.fileSystem globals
        "index.ts.j2" =
      .ok indexTemplate := by
  have hLoad := @loadTemplate_of_stat Builtin.fileSystem
    "index.ts.j2" target.toTarget.templates.directory
    "$SRC/declgen-codegen-typescript/templates/index.ts.j2"
    indexTemplate (by decide +kernel) rfl
  rw [ofTemplate_indexTemplate] at hLoad
  exact @renderOne_of_execAll _ _ _ _ _ (.ok _) hLoad fun _ => by
    rw [execAll_singleton]
    rfl

/- The support files for TypeScript are always the same. -/
theorem support_eq :
    target.toTarget.support Builtin.fileSystem =
      .ok (ArtifactSet.ofList
        [("rt/Opaque.ts", opaqueType),
          ("rt/VariableBlob.ts", blobType),
          ("rt/basetypes.ts", basetypes)]) := by
  rw [TemplateTarget.support_of_runtime rfl]
  exact @bundleRuntime_of_texts _ _ _
    [("Opaque.ts", opaqueType), ("VariableBlob.ts", blobType),
      ("basetypes.ts", basetypes)]
    rfl rfl (List.forall_mem_cons.mpr
      ⟨rfl, List.forall_mem_cons.mpr
        ⟨rfl, List.forall_mem_singleton.mpr rfl⟩⟩)

/-
  Generating for TypeScript fails exactly if some fields or
  variants cannot be gone through, or the type of a field cannot
  be searched; otherwise there are the two modules and the
  support files.
-/
theorem outcome_generate (fs : FileSystem) (schema : Schema) :
    (target.generate fs schema).outcome =
      match style.typesOf schema with
      | .ok types =>
          .ok ⟨ArtifactSet.ofList
              [("koinos.ts", style.sourceText types),
                ("index.ts", indexTemplate),
                ("rt/Opaque.ts", opaqueType),
                ("rt/VariableBlob.ts", blobType),
                ("rt/basetypes.ts", basetypes)],
            "koinos.ts"⟩
      | .error cause =>
          .error (target.toTarget.templates.errorOf
            "koinos.ts.j2" cause) := by
  have hSource := renderOne_types schema
  rw [BuiltinTarget.generate, TemplateTarget.outcome_generate,
    templates_names, TemplateTarget.globalsOf, support_eq]
  cases hTypes : style.typesOf schema with
  | error cause =>
      rw [hTypes] at hSource
      rw [TemplateSet.outcome_renderFrom_cons_of_error hSource]
      rfl
  | ok types =>
      rw [hTypes] at hSource
      rw [TemplateSet.outcome_renderFrom_cons_of_ok hSource,
        TemplateSet.outcome_renderFrom_cons_of_ok
          (renderOne_index (RenderContext.ofSchema schema).globals),
        artifactPath_types, artifactPath_index]
      rfl

end Generation

end Bindery.Builtin.TypeScript
