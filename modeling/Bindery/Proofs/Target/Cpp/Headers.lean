import Bindery.Proofs.Files.Destination
import Bindery.Proofs.Target.Bundle
import Bindery.Proofs.Target.Composition
import Bindery.Proofs.Target.Declarations
import Bindery.Target.Builtin.All

/-
  This file says which headers are generated for C++, letter by
  letter.  One has a block of forward declarations for every
  namespace, the other one a block with one definition for every
  qualified name.

  Key definitions include:
    * `ForwardBlock`
    * `forwardBlocks`
    * `Definition`
    * `definitionsOf`

  Key theorems include:
    * `execAll_forward`
    * `execAll_types`
    * `outcome_generate`
-/

namespace Bindery.Builtin.Cpp

open Template

------------------------------------------------------------
-- Headers
------------------------------------------------------------

/- The line that opens a namespace; the global one has none. -/
def opening (space : String) : String :=
  if space = "" then "" else "namespace " ++ space ++ " \x7b"

/- The line that closes a namespace. -/
def closing (space : String) : String :=
  if space = "" then "" else "\x7d // namespace " ++ space

/- What stands in a namespace, after an empty line. -/
def inNamespace (space content : String) : String :=
  "\n\n" ++ opening space ++ content ++ "\n" ++ closing space

/- A line that declares a type. -/
def forwardLine (name : String) : String :=
  "\nstruct " ++ name ++ ";"

/- A namespace with the names of types that are declared in it. -/
structure ForwardBlock where
  space : String
  names : List String

def ForwardBlock.text (block : ForwardBlock) : String :=
  inNamespace block.space
    (String.join (block.names.map forwardLine))

/- How a header that includes another one starts. -/
def preface (other : String) : String :=
  "#pragma once\n// Code generated by declgen. DO NOT EDIT.\n\n" ++
    "#include \"" ++ other ++ "\""

/- The header with forward declarations. -/
def forwardText (blocks : List ForwardBlock) : String :=
  preface "../rt/basetypes.hpp" ++
    String.join (blocks.map ForwardBlock.text) ++ "\n"

/- The names that declarations in a namespace end with. -/
def namesIn
    (decls : List Decl)
    (space : String) : List String :=
  (decls.filter (enclosingNamespace ·.name = space)).map
    (·.name.getLastD "")

/- The forward declarations in a namespace of a schema. -/
def forwardBlock (schema : Schema) (space : String) : ForwardBlock :=
  ⟨space, namesIn schema.decls space⟩

/- The blocks of forward declarations for a schema. -/
def forwardBlocks (schema : Schema) : List ForwardBlock :=
  (RenderContext.ofSchema schema).declNamespaces.map
    (forwardBlock schema)

/- A type in a namespace, with what follows its name. -/
structure Definition where
  space : String
  name : String
  body : String
deriving DecidableEq

def Definition.text (d : Definition) : String :=
  inNamespace d.space ("\nstruct " ++ d.name ++ d.body)

/- The header with definitions. -/
def typesText (definitions : List Definition) : String :=
  preface "types_fwd.hpp" ++
    String.join (definitions.map Definition.text) ++ "\n"

/- The line of a field with a type and a name. -/
def fieldLine (field : Value) : String :=
  "\n   " ++ (field.part "type").display ++ " " ++
    (field.part "name").display ++ ";"

/- What follows the name of a type whose body has a form. -/
def bodyText : Form → Except TemplateError String
| .record fields =>
    fields.elements.map fun items =>
      " \x7b" ++ String.join (items.map fieldLine) ++ "\n\x7d;"
| .choice variants =>
    variants.elements.map fun items =>
      " : std::variant< " ++
        String.intercalate ", " (items.map Value.display) ++
        " > \x7b\n   using variant::variant;\n\x7d;"
| .unspecified => .ok " \x7b\n   koinos::opaque data;\n\x7d;"

/- The definition for a qualified name and a body. -/
def definitionOf
    (entry : String × Json) : Except TemplateError Definition :=
  (bodyText (Form.ofBody entry.2)).map fun body =>
    ⟨namespaceOf entry.1, localName entry.1, body⟩

/- The definitions for a schema. -/
def definitionsOf
    (schema : Schema) : Except TemplateError (List Definition) :=
  (RenderContext.ofSchema schema).declsByName.mapM definitionOf

------------------------------------------------------------
-- Namespaces
------------------------------------------------------------

/- The statement that opens a namespace. -/
def openStmt : Stmt :=
  .cond (.name "ns")
    [.text "namespace ", .emit (.name "ns"), .text " ",
      .emit (.const (.plain "\x7b"))]
    []

/- The statement that closes a namespace. -/
def closeStmt : Stmt :=
  .cond (.name "ns")
    [.text "\x7d // namespace ", .emit (.name "ns")]
    []

/- A statement between those that open and close a namespace. -/
def withinNamespace (stmt : Stmt) : List Stmt :=
  [.text "\n\n", openStmt, stmt, .text "\n", closeStmt]

section Statements

variable {setting : Setting} {scope : Scope} {space : String}

theorem execStmt_openStmt
    (hMode : setting.mode = .verbatim)
    (hSpace : setting.globals.lookup scope "ns" = .plain space) :
    execStmt setting openStmt scope = .ok (opening space, scope) := by
  by_cases hEmpty : space = ""
  · simp [openStmt, opening, execStmt, execAll, evalExpr, hSpace,
      hEmpty, Bind.bind, Except.bind]
  · simp [openStmt, opening, execStmt, execAll, evalExpr, hSpace,
      hMode, hEmpty, Bind.bind, Except.bind, String.append_assoc]

theorem execStmt_closeStmt
    (hMode : setting.mode = .verbatim)
    (hSpace : setting.globals.lookup scope "ns" = .plain space) :
    execStmt setting closeStmt scope = .ok (closing space, scope) := by
  by_cases hEmpty : space = ""
  · simp [closeStmt, closing, execStmt, execAll, evalExpr, hSpace,
      hEmpty, Bind.bind, Except.bind]
  · simp [closeStmt, closing, execStmt, execAll, evalExpr, hSpace,
      hMode, hEmpty, Bind.bind, Except.bind]

/- What stands in a namespace is what the statement gives. -/
theorem execAll_withinNamespace
    {stmt : Stmt}
    {content : Except TemplateError String}
    (hMode : setting.mode = .verbatim)
    (hSpace : setting.globals.lookup scope "ns" = .plain space)
    (hStmt : execStmt setting stmt scope =
      content.map fun text => (text, scope)) :
    execAll setting (withinNamespace stmt) scope =
      (content.map (inNamespace space)).map
        fun text => (text, scope) := by
  have hOpen := execStmt_openStmt hMode hSpace
  have hClose := execStmt_closeStmt hMode hSpace
  cases content with
  | error e =>
      simp [withinNamespace, execAll, execStmt, hOpen, hStmt, Bind.bind,
        Except.bind, Except.map]
  | ok text =>
      simp [withinNamespace, execAll, execStmt, hOpen, hStmt, hClose,
        inNamespace, Bind.bind, Except.bind, Except.map,
        String.append_assoc]

end Statements

------------------------------------------------------------
-- Forward Declarations
------------------------------------------------------------

/- The segments of the declaration at hand. -/
def segmentsExpr : Expr :=
  .item (.name "decl") (.const (.int 0))

/- The namespace around the declaration at hand. -/
def enclosingExpr : Expr :=
  .filter "fq_name"
    (.slice segmentsExpr (.const .none)
      (.unary .negate (.const (.int 1))) (.const .none))
    [] []

/- The line of the declaration at hand, if it is in the namespace. -/
def forwardStmt : Stmt :=
  .cond (.binary .equal enclosingExpr (.name "ns"))
    [.text "\nstruct ", .emit (.filter "last" segmentsExpr [] []),
      .text ";"]
    []

/- The statement that goes through all declarations. -/
def forwardLoop : Stmt :=
  .loop (.name "decl") (.attribute (.name "schema") "decls") none
    [forwardStmt] []

/- The template of the header with forward declarations. -/
def forwardStmts : List Stmt :=
  [.text (preface "../rt/basetypes.hpp"),
    .loop (.name "ns") (.name "decl_namespaces") none
      (withinNamespace forwardLoop) [],
    .text "\n"]

set_option maxRecDepth 20000 in
theorem ofTemplate_forwardTemplate :
    Stmt.ofTemplate forwardTemplate = .ok forwardStmts := by
  simp only [Stmt.ofTemplate, Token.ofTemplate, forwardTemplate, ofLines,
    String.join, List.map, List.foldl, String.toList_append,
    String.toList_empty]
  simp only [String.reduceToList, List.cons_append, List.nil_append,
    List.length]
  rfl

section Forward

variable {setting : Setting} {scope : Scope} {space : String}
variable {d : Decl} {schema : Schema}

theorem evalExpr_segmentsExpr
    {globals : Globals}
    (hDecl : globals.lookup scope "decl" = .ofJson d.toJson) :
    evalExpr globals scope segmentsExpr =
      .ok (.list (d.name.map Value.plain)) := by
  rw [segmentsExpr, evalExpr]
  simp only [evalExpr, hDecl, ← Value.ofItems_map_text]
  rfl

theorem evalExpr_enclosingExpr
    {globals : Globals}
    (hDecl : globals.lookup scope "decl" = .ofJson d.toJson) :
    evalExpr globals scope enclosingExpr =
      .ok (.plain (enclosingNamespace d.name)) := by
  have hName : (d.name.dropLast.map Value.plain).map Value.display =
      d.name.dropLast := by
    rw [List.map_map]
    exact List.map_id _
  rw [enclosingExpr, evalExpr, evalExpr, evalExpr_segmentsExpr hDecl]
  change (do
    let value ← Value.slice (.list (d.name.map Value.plain)) .none
      (.int (-1)) .none
    applyFilter "fq_name" value [] []) = _
  rw [Value.slice_dropLast, ← List.map_dropLast]
  exact congrArg
    (fun segments => Except.ok (Value.plain (qualifiedName segments)))
    hName

/- The last segment is written; nothing if there are no segments. -/
theorem evalExpr_lastSegment
    {globals : Globals}
    (hDecl : globals.lookup scope "decl" = .ofJson d.toJson) :
    ∃ value, evalExpr globals scope
        (.filter "last" segmentsExpr [] []) = .ok value ∧
      value.display = d.name.getLastD "" := by
  refine ⟨(d.name.map Value.plain).getLast?.getD .undefined, ?_, ?_⟩
  · rw [evalExpr, evalExpr_segmentsExpr hDecl]
    rfl
  · rw [List.getLast?_map, List.getLastD_eq_getLast?]
    cases d.name.getLast? <;> rfl

/- The line of a declaration, if it is in a namespace. -/
def forwardLineIn (space : String) (d : Decl) : String :=
  if enclosingNamespace d.name = space then
    forwardLine (d.name.getLastD "")
  else
    ""

theorem join_forwardLineIn (decls : List Decl) (space : String) :
    String.join (decls.map (forwardLineIn space)) =
      String.join ((namesIn decls space).map forwardLine) := by
  induction decls with
  | nil => rfl
  | cons d rest ih =>
      rw [List.map_cons, String.join_cons, ih, namesIn, forwardLineIn]
      by_cases hIn : enclosingNamespace d.name = space
      · simp [hIn, String.join_cons, namesIn]
      · simp [hIn, namesIn]

theorem execStmt_forwardStmt
    (hMode : setting.mode = .verbatim)
    (hSpace : setting.globals.lookup scope "ns" = .plain space)
    (hDecl : setting.globals.lookup scope "decl" = .ofJson d.toJson) :
    execStmt setting forwardStmt scope =
      .ok (forwardLineIn space d, scope) := by
  rcases evalExpr_lastSegment hDecl with ⟨value, hLast, hDisplay⟩
  rw [forwardStmt, execStmt, evalExpr, evalExpr_enclosingExpr hDecl,
    evalExpr, hSpace]
  by_cases hIn : enclosingNamespace d.name = space
  · simp [hIn, BinaryOperator.apply, Value.isTrue, execAll, execStmt,
      hLast, hMode, hDisplay, forwardLineIn, forwardLine, Bind.bind,
      Except.bind, String.append_assoc]
  · simp [hIn, BinaryOperator.apply, Value.isTrue, execAll,
      forwardLineIn, Bind.bind, Except.bind]

/- All declarations in a namespace are declared, in order. -/
theorem execStmt_forwardLoop
    (hMode : setting.mode = .verbatim)
    (hSpace : setting.globals.lookup scope "ns" = .plain space)
    (hSchema : setting.globals.lookup scope "schema" =
      .ofJson schema.toJson) :
    execStmt setting forwardLoop scope =
      .ok (String.join ((namesIn schema.decls space).map forwardLine),
        scope) := by
  have hSource : evalExpr setting.globals scope
      (.attribute (.name "schema") "decls") =
        .ok (.ofJson (.array (schema.decls.map Decl.toJson))) := by
    rw [evalExpr_part hSchema (Value.ofJson_ne_undefined _), Value.part,
      Schema.toJson, Value.attribute?_ofJson_object]
    rfl
  have hItems : (Value.ofJson
      (.array (schema.decls.map Decl.toJson))).elements =
        .ok (schema.decls.map fun d => .ofJson d.toJson) := by
    rw [Value.ofJson, Value.elements, Value.ofItems_eq_map, List.map_map]
    rfl
  have hLoop := @execStmt_loop Decl ["decl"] scope
    (fun d => .ofJson d.toJson) (fun d => .ok (forwardLineIn space d))
    setting (.name "decl") _ [forwardStmt] _ _ hSource hItems ?_
  · rw [forwardLoop, hLoop, joinEach_ok, join_forwardLineIn]
    rfl
  · intro d _ frame hFrame
    have hBound := hFrame.put (List.mem_singleton_self _)
      (.ofJson d.toJson)
    have hRun := execStmt_forwardStmt hMode
      ((hBound.lookup _ _ (by decide) (by decide)).trans hSpace)
      (Globals.lookup_put _ _ _ _ (by decide))
    rw [← execAll_singleton] at hRun
    exact Gives.of_eq hBound hRun

/- The header with forward declarations, if its template is run. -/
theorem execAll_forward
    (hMode : setting.mode = .verbatim)
    (hGlobals : setting.globals =
      (RenderContext.ofSchema schema).globals) :
    execAll setting forwardStmts [Frame.empty] =
      .ok (forwardText (forwardBlocks schema), [Frame.empty]) := by
  have hSource : evalExpr setting.globals [Frame.empty]
      (.name "decl_namespaces") = .ok (.ofJson (.array
        ((RenderContext.ofSchema schema).declNamespaces.map
          Json.text))) := by
    rw [evalExpr, hGlobals, lookup_declNamespaces]
  have hItems : (Value.ofJson (.array
      ((RenderContext.ofSchema schema).declNamespaces.map
        Json.text))).elements =
        .ok ((RenderContext.ofSchema schema).declNamespaces.map
          Value.plain) := by
    rw [Value.ofJson, Value.elements, Value.ofItems_map_text]
  have hLoop := @execStmt_loop String ["ns"] [Frame.empty]
    Value.plain (fun space => .ok (forwardBlock schema space).text)
    setting (.name "ns") _ (withinNamespace forwardLoop) _ _ hSource
    hItems ?_
  · have hBlocks :
        (RenderContext.ofSchema schema).declNamespaces.map
            (fun space => (forwardBlock schema space).text) =
          (forwardBlocks schema).map ForwardBlock.text := by
      rw [forwardBlocks, List.map_map]
      rfl
    rw [joinEach_ok, hBlocks] at hLoop
    exact @execAll_enclosed _ _ _ (.ok _) hLoop
      (preface "../rt/basetypes.hpp") "\n"
  · intro space _ frame hFrame
    have hBound := hFrame.put (List.mem_singleton_self _) (.plain space)
    have hSpace := Globals.lookup_put setting.globals frame
      [Frame.empty] (.plain space) (show "ns" ≠ "loop" by decide)
    have hSchema := hBound.lookup setting.globals [Frame.empty]
      (show "schema" ∉ ["ns"] by decide) (by decide)
    rw [hGlobals, lookup_schema] at hSchema
    rw [← hGlobals] at hSchema
    have hForward := execStmt_forwardLoop hMode hSpace hSchema
    exact Gives.of_eq hBound
      (@execAll_withinNamespace _ _ _ _ (.ok _) hMode hSpace hForward)

end Forward

------------------------------------------------------------
-- Definitions
------------------------------------------------------------

/- The start of the definition at hand. -/
def startStmts : List Stmt :=
  [.text "\nstruct ",
    .emit (.filter "local_name" (.name "name") [] [])]

/- The line of the field at hand. -/
def fieldStmts : List Stmt :=
  [.text "\n   ", .emit (.attribute (.name "field") "type"),
    .text " ", .emit (.attribute (.name "field") "name"),
    .text ";"]

/- The statement that goes through the fields of a body. -/
def fieldLoop : Stmt :=
  .loop (.name "field") (.attribute (.name "decl") "fields") none
    fieldStmts []

/- The alternatives of a body. -/
def variantsExpr : Expr :=
  .filter "join" (.attribute (.name "decl") "variants")
    [.const (.plain ", ")] []

/- The statement that writes the definition at hand. -/
def definitionStmt : Stmt :=
  .cond
    (.test "defined" (.attribute (.name "decl") "fields") [] [])
    (startStmts ++ [.text " \x7b", fieldLoop, .text "\n\x7d;"])
    [.cond
      (.test "defined" (.attribute (.name "decl") "variants") [] [])
      (startStmts ++
        [.text " : std::variant< ", .emit variantsExpr,
          .text " > \x7b\n   using variant::variant;\n\x7d;"])
      (startStmts ++
        [.text " \x7b\n   koinos::opaque data;\n\x7d;"])]

/- The statement that finds the namespace of the name at hand. -/
def spaceStmt : Stmt :=
  .assign (.name "ns") (.filter "namespace_of" (.name "name") [] [])

/- The template of the header with definitions. -/
def typesStmts : List Stmt :=
  [.text (preface "types_fwd.hpp"),
    .loop (.tuple [.name "name", .name "decl"])
      (.filter "items" (.name "decls_by_name") [] []) none
      (spaceStmt :: withinNamespace definitionStmt) [],
    .text "\n"]

set_option maxRecDepth 20000 in
theorem ofTemplate_typesTemplate :
    Stmt.ofTemplate typesTemplate = .ok typesStmts := by
  simp only [Stmt.ofTemplate, Token.ofTemplate, typesTemplate, ofLines,
    String.join, List.map, List.foldl, String.toList_append,
    String.toList_empty]
  simp only [String.reduceToList, List.cons_append, List.nil_append,
    List.length]
  rfl

section Definitions

variable {setting : Setting} {scope : Scope} {name : String}
variable {body : Json} {schema : Schema}

theorem execAll_startStmts
    (hMode : setting.mode = .verbatim)
    (hName : setting.globals.lookup scope "name" = .plain name) :
    execAll setting startStmts scope =
      .ok ("\nstruct " ++ localName name, scope) := by
  have hLocal : evalExpr setting.globals scope
      (.filter "local_name" (.name "name") [] []) =
        .ok (.plain (localName name)) := by
    rw [evalExpr, evalExpr, hName]
    rfl
  rw [startStmts, execAll_cons_of_ok (execStmt_text _ _ _),
    execAll_singleton, execStmt, hLocal, hMode]
  rfl

theorem execAll_fieldStmts
    {field : Value}
    (hMode : setting.mode = .verbatim)
    (hField : setting.globals.lookup scope "field" = field)
    (hDefined : field ≠ .undefined) :
    execAll setting fieldStmts scope = .ok (fieldLine field, scope) := by
  have hType := evalExpr_part hField hDefined "type"
  have hName := evalExpr_part hField hDefined "name"
  simp [fieldStmts, execAll, execStmt, hType, hName, hMode, fieldLine,
    Bind.bind, Except.bind, String.append_assoc]

/- One line for each field. -/
theorem execStmt_fieldLoop
    (hMode : setting.mode = .verbatim)
    (hDecl : setting.globals.lookup scope "decl" = .ofJson body) :
    execStmt setting fieldLoop scope =
      (((Value.ofJson body).part "fields").elements.map
        fun items => String.join (items.map fieldLine)).map
        fun text => (text, scope) :=
  execStmt_lines hDecl (by decide)
    fun _ hDefined _ hField => execAll_fieldStmts hMode hField hDefined

theorem evalExpr_variantsExpr
    {globals : Globals}
    (hDecl : globals.lookup scope "decl" = .ofJson body) :
    evalExpr globals scope variantsExpr =
      ((Value.ofJson body).part "variants").elements.map
        fun items => .plain
          (String.intercalate ", " (items.map Value.display)) := by
  have hSource := evalExpr_part hDecl
    (Value.ofJson_ne_undefined body) "variants"
  rw [variantsExpr, evalExpr, hSource]
  change joinValues ", " ((Value.ofJson body).part "variants") = _
  rw [joinValues]
  cases ((Value.ofJson body).part "variants").elements <;> rfl

/- A definition is written by the form of its body. -/
theorem execStmt_definitionStmt
    (hMode : setting.mode = .verbatim)
    (hName : setting.globals.lookup scope "name" = .plain name)
    (hDecl : setting.globals.lookup scope "decl" = .ofJson body) :
    execStmt setting definitionStmt scope =
      ((bodyText (Form.ofBody body)).map
        fun text => "\nstruct " ++ localName name ++ text).map
        fun text => (text, scope) := by
  have hStart := execAll_startStmts hMode hName
  rw [definitionStmt, execStmt_form hDecl]
  rcases Form.ofBody_cases body with hForm | hForm | hForm
  · have hFields := execStmt_fieldLoop hMode hDecl
    simp only [hForm, bodyText]
    rw [execAll_append_of_ok hStart, execAll_enclosed hFields]
    cases ((Value.ofJson body).part "fields").elements <;> rfl
  · have hVariants : execStmt setting (.emit variantsExpr) scope =
        (((Value.ofJson body).part "variants").elements.map fun items =>
          String.intercalate ", " (items.map Value.display)).map
          fun text => (text, scope) := by
      rw [execStmt, evalExpr_variantsExpr hDecl, hMode]
      cases ((Value.ofJson body).part "variants").elements <;> rfl
    simp only [hForm, bodyText]
    rw [execAll_append_of_ok hStart, execAll_enclosed hVariants]
    cases ((Value.ofJson body).part "variants").elements <;> rfl
  · simp only [hForm, bodyText]
    rw [execAll_append_of_ok hStart, execAll_singleton]
    rfl

/- A definition stands in the namespace that its name has. -/
theorem execAll_definition
    {entry : String × Json}
    {frame : Frame}
    (hMode : setting.mode = .verbatim)
    (hFrame : frame.Only ["name", "decl", "ns"])
    (hName : setting.globals.lookup [frame, Frame.empty] "name" =
      .plain entry.1)
    (hDecl : setting.globals.lookup [frame, Frame.empty] "decl" =
      .ofJson entry.2) :
    Gives ["name", "decl", "ns"] [Frame.empty]
      (execAll setting (spaceStmt :: withinNamespace definitionStmt)
        [frame, Frame.empty])
      ((definitionOf entry).map Definition.text) := by
  let bound := frame.put "ns" (.plain (namespaceOf entry.1))
  have hAssign : execStmt setting spaceStmt [frame, Frame.empty] =
      .ok ("", [bound, Frame.empty]) := by
    rw [spaceStmt, execStmt, evalExpr, evalExpr, hName]
    rfl
  have hBound : bound.Only ["name", "decl", "ns"] :=
    hFrame.put (by decide) _
  have hSpace : setting.globals.lookup [bound, Frame.empty] "ns" =
      .plain (namespaceOf entry.1) :=
    Globals.lookup_put _ _ _ _ (by decide)
  have hKeep : ∀ word, word ≠ "ns" → word ≠ "loop" →
      setting.globals.lookup [bound, Frame.empty] word =
        setting.globals.lookup [frame, Frame.empty] word := fun _ =>
    Globals.lookup_put_of_ne _ _ _ _
  have hDefinition := execAll_withinNamespace hMode hSpace
    (execStmt_definitionStmt hMode
      ((hKeep "name" (by decide) (by decide)).trans hName)
      ((hKeep "decl" (by decide) (by decide)).trans hDecl))
  refine Gives.of_eq hBound ?_
  rw [execAll_cons_of_ok hAssign, hDefinition, definitionOf]
  cases bodyText (Form.ofBody entry.2) with
  | error e => rfl
  | ok text =>
      exact congrArg (fun s => Except.ok (s, _)) String.empty_append

/- The header with definitions, if its template is run. -/
theorem execAll_types
    (hMode : setting.mode = .verbatim)
    (hGlobals : setting.globals =
      (RenderContext.ofSchema schema).globals) :
    execAll setting typesStmts [Frame.empty] =
      ((definitionsOf schema).map typesText).map
        fun text => (text, [Frame.empty]) := by
  refine @execAll_declarations (RenderContext.ofSchema schema) setting
    ["name", "decl", "ns"] _ _ definitionOf Definition.text hGlobals
    (by simp) (by simp) ?_ (preface "types_fwd.hpp") "\n"
  rintro entry - frame hFrame hName hDecl
  exact execAll_definition hMode hFrame hName hDecl

end Definitions

------------------------------------------------------------
-- Generation
------------------------------------------------------------

section Generation

variable {schema : Schema}

theorem templates_names :
    target.toTarget.templates.names =
      ["koinos/types_fwd.hpp.j2", "koinos/types.hpp.j2"] := rfl

theorem artifactPath_forward :
    artifactPath "koinos/types_fwd.hpp.j2" = "koinos/types_fwd.hpp" := by
  decide +kernel

theorem artifactPath_types :
    artifactPath "koinos/types.hpp.j2" = "koinos/types.hpp" := by
  decide +kernel

theorem renderOne_forward (schema : Schema) :
    target.toTarget.templates.renderOne Builtin.fileSystem
        (RenderContext.ofSchema schema).globals
        "koinos/types_fwd.hpp.j2" =
      .ok (forwardText (forwardBlocks schema)) := by
  have hLoad := @loadTemplate_of_stat Builtin.fileSystem
    "koinos/types_fwd.hpp.j2" target.toTarget.templates.directory
    "$SRC/declgen-codegen-cpp/templates/koinos/types_fwd.hpp.j2"
    forwardTemplate (by decide +kernel) rfl
  rw [ofTemplate_forwardTemplate] at hLoad
  exact @renderOne_of_execAll _ _ _ _ _ (.ok _) hLoad fun _ =>
    execAll_forward rfl rfl

theorem renderOne_types (schema : Schema) :
    target.toTarget.templates.renderOne Builtin.fileSystem
        (RenderContext.ofSchema schema).globals
        "koinos/types.hpp.j2" =
      ((definitionsOf schema).map typesText).mapError
        (target.toTarget.templates.errorOf "koinos/types.hpp.j2") := by
  have hLoad := @loadTemplate_of_stat Builtin.fileSystem
    "koinos/types.hpp.j2" target.toTarget.templates.directory
    "$SRC/declgen-codegen-cpp/templates/koinos/types.hpp.j2"
    typesTemplate (by decide +kernel) rfl
  rw [ofTemplate_typesTemplate] at hLoad
  exact renderOne_of_execAll hLoad fun _ => execAll_types rfl rfl

/- The support files for C++ are always the same. -/
theorem support_eq :
    target.toTarget.support Builtin.fileSystem =
      .ok (ArtifactSet.ofList
        [("rt/basetypes.hpp", basetypes),
          ("rt/opaque.hpp", opaqueType)]) := by
  rw [TemplateTarget.support_of_runtime rfl]
  exact @bundleRuntime_of_texts _ _ _
    [("basetypes.hpp", basetypes), ("opaque.hpp", opaqueType)]
    rfl rfl (List.forall_mem_cons.mpr
      ⟨rfl, List.forall_mem_singleton.mpr rfl⟩)

/-
  Generating for C++ fails exactly if some fields or variants
  cannot be gone through; otherwise there are two headers and
  the support files.
-/
theorem outcome_generate (fs : FileSystem) (schema : Schema) :
    (target.generate fs schema).outcome =
      match definitionsOf schema with
      | .ok definitions =>
          .ok ⟨ArtifactSet.ofList
              [("koinos/types_fwd.hpp",
                  forwardText (forwardBlocks schema)),
                ("koinos/types.hpp", typesText definitions),
                ("rt/basetypes.hpp", basetypes),
                ("rt/opaque.hpp", opaqueType)],
            "koinos/types.hpp"⟩
      | .error cause =>
          .error (target.toTarget.templates.errorOf
            "koinos/types.hpp.j2" cause) := by
  have hTypes := renderOne_types schema
  rw [BuiltinTarget.generate, TemplateTarget.outcome_generate,
    templates_names, TemplateTarget.globalsOf,
    TemplateSet.outcome_renderFrom_cons_of_ok (renderOne_forward schema),
    support_eq]
  cases hDefinitions : definitionsOf schema with
  | error cause =>
      rw [hDefinitions] at hTypes
      rw [TemplateSet.outcome_renderFrom_cons_of_error hTypes]
      rfl
  | ok definitions =>
      rw [hDefinitions] at hTypes
      rw [TemplateSet.outcome_renderFrom_cons_of_ok hTypes,
        artifactPath_forward, artifactPath_types]
      rfl

end Generation

end Bindery.Builtin.Cpp
