import Bindery.Proofs.Target.SourceLines
import Bindery.Proofs.Target.TypeScript.Source

/-
  This file says which lines the module with types has for
  TypeScript, if every body describes a shape.

  Key definitions include:
    * `fieldReference`
    * `closeLast`
    * `typeLines`
    * `entryLines`
    * `sourceLines`
    * `write`

  Key theorems include:
    * `brokenLines_closeLast`
    * `define_of_fits`
    * `endsInLine_sourceLines`
    * `generate_moduleLines`
-/

namespace Bindery.Builtin.TypeScript

open Template

------------------------------------------------------------
-- Lines
------------------------------------------------------------

/- How a field refers to its type. -/
def fieldReference (type : String) : String :=
  if Text.occursIn separator type.toList then identifierOf type
  else "rt." ++ type

/- The line of a field. -/
def fieldText (field : FieldDecl) : String :=
  "  " ++ field.name ++ ": " ++ fieldReference field.type ++ ";"

/- The line of an alternative. -/
def variantText (variant : String) : String :=
  "  | " ++ identifierOf variant

/- Lines of which the last one is ended by a semicolon. -/
def closeLast : List String → List String
| [] => []
| [last] => [last ++ ";"]
| line :: next :: rest => line :: closeLast (next :: rest)

/- The lines of a type. -/
def typeLines (identifier : String) : Shape → List String
| .record fields =>
    ["export interface " ++ identifier ++ " \x7b"] ++
      fields.map fieldText ++ ["\x7d"]
| .choice [] => ["export type " ++ identifier ++ " = never;"]
| .choice variants =>
    ("export type " ++ identifier ++ " =") ::
      closeLast (variants.map variantText)
| .unspecified => ["export type " ++ identifier ++ " = Opaque;"]

/- The lines of a type with the comment on its name. -/
def entryLines (entry : String × Shape) : List String :=
  ["", "/** " ++ entry.1 ++ " */"] ++
    typeLines (identifierOf entry.1) entry.2

/- The lines of the module with types. -/
def sourceLines (entries : List (String × Shape)) : List String :=
  ["// Code generated by declgen. DO NOT EDIT.",
    "",
    "import \x7b Opaque \x7d from \"./rt/Opaque\";",
    "import * as rt from \"./rt/basetypes\";"] ++
    entries.flatMap entryLines

theorem brokenLines_closeLast (line : String) (rest : List String) :
    brokenLines (closeLast (line :: rest)) =
      brokenLines (line :: rest) ++ ";" := by
  induction rest generalizing line with
  | nil =>
      rw [closeLast, brokenLines_cons, brokenLines_cons, brokenLines_nil,
        String.append_empty, String.append_empty, String.append_assoc]
  | cons next others ih =>
      rw [closeLast, brokenLines_cons, ih, brokenLines_cons line,
        ← String.append_assoc]

theorem endsInLine_closeLast (line : String) (rest : List String) :
    EndsInLine (closeLast (line :: rest)) := by
  induction rest generalizing line with
  | nil => exact endsInLine_singleton _ rfl (by decide)
  | cons next others ih => exact (ih next).append [line]

/- The lines of a type end in a letter, ... -/
theorem endsInLine_typeLines (identifier : String) (shape : Shape) :
    EndsInLine (typeLines identifier shape) := by
  cases shape with
  | record fields =>
      exact EndsInLine.append _ ⟨"\x7d", '}', rfl, rfl, by decide⟩
  | choice variants =>
      cases variants with
      | nil => exact endsInLine_singleton _ rfl (by decide)
      | cons first rest =>
          exact (endsInLine_closeLast _ _).append
            ["export type " ++ identifier ++ " ="]
  | unspecified => exact endsInLine_singleton _ rfl (by decide)

/- ... and so do those of the whole module. -/
theorem endsInLine_sourceLines (entries : List (String × Shape)) :
    EndsInLine (sourceLines entries) :=
  EndsInLine.append_flatMap
    ⟨"import * as rt from \"./rt/basetypes\";", ';', rfl, rfl, by decide⟩
    (fun _ => (endsInLine_typeLines _ _).append _) entries

------------------------------------------------------------
-- Types
------------------------------------------------------------

/- The keyword and the definition for a shape. -/
def write : Shape → String × String
| .record fields =>
    ("export interface",
      " \x7b" ++ brokenLines (fields.map fieldText) ++ "\n\x7d")
| .choice [] => ("export type", " = never;")
| .choice variants =>
    ("export type",
      " =" ++ brokenLines (variants.map variantText) ++ ";")
| .unspecified => ("export type", " = Opaque;")

/- A field is written as its name and type are read. -/
theorem fieldLine_of_isReadFrom
    {value : Value}
    {field : FieldDecl}
    (h : field.IsReadFrom value) :
    fieldLine value = .ok ("\n" ++ fieldText field) := by
  have hType : fieldType (.plain field.type) =
      .ok (fieldReference field.type) := rfl
  rw [fieldLine, h.name, h.type, hType, fieldText]
  simp only [Except.map, Value.display_plain, ← String.append_assoc]
  rfl

/- Only the shape counts for what is written. -/
theorem define_of_fits
    {shape : Shape}
    {form : Form}
    (h : shape.Fits form) :
    style.define form = .ok (write shape) := by
  cases h with
  | @record items fields hRead =>
      have hLines : items.mapM fieldLine =
          .ok ((fields.map fieldText).map ("\n" ++ ·)) := by
        rw [mapM_eq_ok_iff, List.map_map, List.forall₂_map_right_iff]
        exact hRead.imp fun _ _ => fieldLine_of_isReadFrom
      change (do
        let lines ← joinEach fieldLine items
        Except.ok ("export interface", interfaceText lines)) = _
      rw [joinEach, hLines]
      rfl
  | @choice variants =>
      cases variants with
      | nil => rfl
      | cons first rest =>
          have hLines : ((first :: rest).map Value.plain).map variantLine =
              ((first :: rest).map variantText).map ("\n" ++ ·) := by
            rw [List.map_map, List.map_map]
            refine List.map_congr_left fun variant _ => ?_
            simp [variantLine, variantText, ← String.append_assoc]
          change Except.ok ("export type",
            unionText ((first :: rest).map Value.plain)) = _
          rw [unionText, hLines]
          rfl
  | unspecified => rfl

theorem typeText_shapedType (entry : String × Shape) :
    style.typeText (SourceStyle.shapedType write entry) =
      brokenLines (entryLines entry) := by
  rcases entry with ⟨name, shape⟩
  rw [← String.toList_inj]
  cases shape with
  | choice variants =>
      cases variants <;>
        simp [SourceStyle.typeText, SourceStyle.shapedType, style,
          comment, TypeDecl.text, startText, write, entryLines,
          typeLines, brokenLines_cons, brokenLines_closeLast,
          brokenLines_nil]
  | _ =>
      simp [SourceStyle.typeText, SourceStyle.shapedType, style, comment,
        TypeDecl.text, startText, write, entryLines, typeLines,
        brokenLines_cons, brokenLines_append, brokenLines_nil]

/- The types that are written for some shapes. -/
theorem typesOf_of_shapes
    {schema : Schema}
    {entries : List (String × Shape)}
    (h : schema.shapes? = some entries) :
    style.typesOf schema =
      .ok (entries.map (SourceStyle.shapedType write)) :=
  SourceStyle.typesOf_of_shapes define_of_fits h

------------------------------------------------------------
-- Generation
------------------------------------------------------------

/-
  If every body describes a shape, generating for TypeScript
  succeeds and the module with types has exactly the lines for
  these shapes.
-/
theorem generate_moduleLines
    (fs : FileSystem)
    {schema : Schema}
    (h : schema.IsDescribed) :
    ∃ entries generation,
      schema.shapes? = some entries ∧
      (target.generate fs schema).outcome = .ok generation ∧
      generation.artifacts.get? "koinos.ts" =
        some (ofLines (sourceLines entries)) ∧
      EndsInOneBreak (ofLines (sourceLines entries)) := by
  rcases h.exists_shapes with ⟨entries, hShapes⟩
  have hOutcome := outcome_generate fs schema
  simp only [typesOf_of_shapes hShapes] at hOutcome
  have hText : style.sourceText
      (entries.map (SourceStyle.shapedType write)) =
        ofLines (sourceLines entries) :=
    SourceStyle.sourceText_shapedTypes (by decide +kernel)
      typeText_shapedType entries
  rw [hText] at hOutcome
  exact ⟨entries, _, hShapes, hOutcome, rfl,
    endsInOneBreak_ofLines (endsInLine_sourceLines entries)⟩

/- Unions with and without alternatives, and a name that is repeated. -/
def unitedSchema : Schema :=
  ⟨[⟨["a", "Choice"], .object [("fields", .array [])]⟩,
      ⟨["a", "b", "Foo"], .object [("fields", .array
        [.object [("type", .text "int32"), ("name", .text "x")],
          .object [("name", .text "bar"), ("type", .text "a::Bar")]])]⟩,
      ⟨["a", "Bar"], .object [("doc", .null)]⟩,
      ⟨["a", "Choice"], .object
        [("variants", .array [.text "a::b::Foo", .text "Top"])]⟩,
      ⟨["Never"], .object [("variants", .array [])]⟩], []⟩

theorem generate_moduleLines_united :
    unitedSchema.IsDescribed ∧
      ∃ entries generation,
        unitedSchema.shapes? = some entries ∧
        (target.generate Builtin.fileSystem unitedSchema).outcome =
          .ok generation ∧
        generation.artifacts.get? "koinos.ts" =
          some (ofLines
            ["// Code generated by declgen. DO NOT EDIT.",
              "",
              "import \x7b Opaque \x7d from \"./rt/Opaque\";",
              "import * as rt from \"./rt/basetypes\";",
              "",
              "/** a::Choice */",
              "export type a_Choice =",
              "  | a_b_Foo",
              "  | Top;",
              "",
              "/** a::b::Foo */",
              "export interface a_b_Foo \x7b",
              "  x: rt.int32;",
              "  bar: a_Bar;",
              "\x7d",
              "",
              "/** a::Bar */",
              "export type a_Bar = Opaque;",
              "",
              "/** Never */",
              "export type Never = never;"]) ∧
        EndsInOneBreak (ofLines (sourceLines entries)) := by
  have hDescribed : unitedSchema.IsDescribed := by decide +kernel
  have hShapes : unitedSchema.shapes? =
      some [("a::Choice", .choice ["a::b::Foo", "Top"]),
        ("a::b::Foo", .record [⟨"x", "int32"⟩, ⟨"bar", "a::Bar"⟩]),
        ("a::Bar", .unspecified),
        ("Never", .choice [])] := by
    decide +kernel
  rcases generate_moduleLines Builtin.fileSystem hDescribed with
    ⟨entries, generation, hEntries, hOutcome, hFile, hEnd⟩
  refine ⟨hDescribed, entries, generation, hEntries, hOutcome, ?_, hEnd⟩
  obtain rfl := Option.some.inj (hShapes.symm.trans hEntries)
  rw [hFile]
  exact congrArg (some <| ofLines ·) (by decide +kernel)

end Bindery.Builtin.TypeScript
