import Bindery.Proofs.Target.Identifiers

/-
  This file is about source files with one type for every
  qualified name.  They differ in how they start, in what stands
  before a type, and in how a type is defined by the form of its
  body.

  Key definitions include:
    * `TypeDecl`
    * `SourceStyle`
    * `SourceStyle.typesOf`
    * `SourceStyle.sourceText`

  Key theorems include:
    * `execAll_startStmts`
    * `SourceStyle.names_of_typesOf`
    * `SourceStyle.identifier_of_typesOf`
    * `SourceStyle.execAll_source`
-/

namespace Bindery

open Template

------------------------------------------------------------
-- Styles
------------------------------------------------------------

/- A type in a source file, with what follows its identifier. -/
structure TypeDecl where
  name : String
  keyword : String
  identifier : String
  definition : String
deriving DecidableEq

/- A line that starts a type. -/
def startText (keyword identifier : String) : String :=
  "\n" ++ keyword ++ " " ++ identifier

/- A type on lines of its own. -/
def TypeDecl.text (t : TypeDecl) : String :=
  startText t.keyword t.identifier ++ t.definition

/-
  How a source file is written: its start, what stands before
  the type of a name, and the keyword and the definition of a
  type.
-/
structure SourceStyle where
  preface : String
  comment : String → String
  define : Form → Except TemplateError (String × String)

namespace SourceStyle

/- The type for a qualified name and a body. -/
def typeOf
    (style : SourceStyle)
    (entry : String × Json) : Except TemplateError TypeDecl :=
  (style.define (Form.ofBody entry.2)).map
    fun (keyword, definition) =>
      ⟨entry.1, keyword, identifierOf entry.1, definition⟩

/- The types for a schema. -/
def typesOf
    (style : SourceStyle)
    (schema : Schema) : Except TemplateError (List TypeDecl) :=
  (RenderContext.ofSchema schema).declsByName.mapM style.typeOf

/- A type with what stands before it. -/
def typeText (style : SourceStyle) (t : TypeDecl) : String :=
  style.comment t.name ++ t.text

/- The file with some types. -/
def sourceText
    (style : SourceStyle)
    (types : List TypeDecl) : String :=
  style.preface ++ String.join (types.map style.typeText) ++ "\n"

end SourceStyle

------------------------------------------------------------
-- Names
------------------------------------------------------------

namespace SourceStyle

variable {style : SourceStyle} {schema : Schema}
variable {types : List TypeDecl}

theorem name_of_typeOf
    {entry : String × Json}
    {t : TypeDecl}
    (h : style.typeOf entry = .ok t) :
    t.name = entry.1 ∧ t.identifier = identifierOf entry.1 := by
  rw [typeOf] at h
  cases hDefine : style.define (Form.ofBody entry.2) with
  | error e => simp [hDefine, Except.map] at h
  | ok result =>
      obtain rfl : TypeDecl.mk _ _ _ _ = t := by
        simpa [hDefine, Except.map] using h
      exact ⟨rfl, rfl⟩

/- There is one type for each qualified name, ... -/
theorem names_of_typesOf (h : style.typesOf schema = .ok types) :
    types.map TypeDecl.name =
      Keyed.keys (RenderContext.ofSchema schema).declsByName :=
  map_of_mapM (fun _ _ hType => (name_of_typeOf hType).1) h

/- ... under its identifier. -/
theorem identifier_of_typesOf
    {t : TypeDecl}
    (h : style.typesOf schema = .ok types)
    (ht : t ∈ types) :
    t.identifier = identifierOf t.name := by
  have hSame : types.map TypeDecl.identifier =
      types.map fun t => identifierOf t.name :=
    (map_of_mapM (fun _ _ hType => (name_of_typeOf hType).2) h).trans
      (map_of_mapM (fun _ _ hType =>
        congrArg identifierOf (name_of_typeOf hType).1) h).symm
  exact List.map_inj_left.mp hSame t ht

end SourceStyle

------------------------------------------------------------
-- Templates
------------------------------------------------------------

/- The start of the type at hand. -/
def startStmts (keyword : String) : List Stmt :=
  [.text ("\n" ++ keyword ++ " "), .emit (flatExpr (.name "name"))]

section Templates

variable {setting : Setting} {scope : Scope} {name : String}

theorem execAll_startStmts
    (hMode : setting.mode = .verbatim)
    (hName : setting.globals.lookup scope "name" = .plain name)
    (keyword : String) :
    execAll setting (startStmts keyword) scope =
      .ok (startText keyword (identifierOf name), scope) := by
  rw [startStmts, execAll_cons_of_ok (execStmt_text _ _ _),
    execAll_singleton, execStmt, evalExpr_flatName hName, hMode]
  rfl

namespace SourceStyle

variable {style : SourceStyle} {schema : Schema}

/- The template of a source file. -/
def sourceStmts
    (style : SourceStyle)
    (commentStmts : List Stmt)
    (typeStmt : Stmt) : List Stmt :=
  [.text style.preface,
    .loop (.tuple [.name "name", .name "decl"])
      (.filter "items" (.name "decls_by_name") [] []) none
      (commentStmts ++ [typeStmt]) [],
    .text "\n"]

/-
  The source file, if its template is run and its statements
  write the comment and the type for each name and body.
-/
theorem execAll_source
    {commentStmts : List Stmt}
    {typeStmt : Stmt}
    (hGlobals : setting.globals =
      (RenderContext.ofSchema schema).globals)
    (hComment : ∀ (scope : Scope) (name : String),
      setting.globals.lookup scope "name" = .plain name →
      execAll setting commentStmts scope =
        .ok (style.comment name, scope))
    (hType : ∀ (scope : Scope) (name : String) (body : Json),
      setting.globals.lookup scope "name" = .plain name →
      setting.globals.lookup scope "decl" = Value.ofJson body →
      execStmt setting typeStmt scope =
        ((style.typeOf (name, body)).map TypeDecl.text).map
          fun text => (text, scope)) :
    execAll setting (style.sourceStmts commentStmts typeStmt)
        [Frame.empty] =
      ((style.typesOf schema).map style.sourceText).map
        fun text => (text, [Frame.empty]) := by
  refine @execAll_declarations (RenderContext.ofSchema schema) setting
    ["name", "decl"] _ _ style.typeOf style.typeText hGlobals
    (by simp) (by simp) ?_ style.preface "\n"
  rintro entry - frame hFrame hName hDecl
  refine Gives.of_eq hFrame ?_
  rw [execAll_append_of_ok (hComment _ entry.1 hName),
    execAll_singleton, hType _ entry.1 entry.2 hName hDecl, typeOf]
  cases style.define (Form.ofBody entry.2) <;> rfl

end SourceStyle

end Templates

end Bindery
