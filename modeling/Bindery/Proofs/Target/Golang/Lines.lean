import Bindery.Proofs.Target.Golang.Source
import Bindery.Proofs.Target.SourceLines

/-
  This file says which lines the source file for Go has, if every
  body describes a shape.

  Key definitions include:
    * `typeLines`
    * `entryLines`
    * `sourceLines`

  Key theorems include:
    * `define_of_fits`
    * `generate_lines`
-/

namespace Bindery.Builtin.Golang

------------------------------------------------------------
-- Lines
------------------------------------------------------------

/- The line of a field. -/
def fieldText (field : FieldDecl) : String :=
  "\t" ++ fieldName field.name ++ " " ++ identifierOf field.type

/- The lines of a type. -/
def typeLines (identifier : String) : Shape → List String
| .record fields =>
    ["type " ++ identifier ++ " struct \x7b"] ++
      fields.map fieldText ++ ["\x7d"]
| .choice _ =>
    ["type " ++ identifier ++ " struct \x7b",
      "\tValue interface\x7b\x7d",
      "\x7d"]
| .unspecified => ["type " ++ identifier ++ " = Opaque"]

/- The lines of a type with the comment on its name. -/
def entryLines (entry : String × Shape) : List String :=
  ["",
    "// " ++ identifierOf entry.1 ++ " is declared as " ++ entry.1 ++
      "."] ++
    typeLines (identifierOf entry.1) entry.2

/- The lines of the source file. -/
def sourceLines (entries : List (String × Shape)) : List String :=
  ["// Code generated by declgen. DO NOT EDIT.", "",
    "package koinos"] ++
    entries.flatMap entryLines

/- The lines of a type end in a letter, ... -/
theorem endsInLine_typeLines (identifier : String) (shape : Shape) :
    EndsInLine (typeLines identifier shape) := by
  cases shape with
  | record fields =>
      exact EndsInLine.append _ ⟨"\x7d", '}', rfl, rfl, by decide⟩
  | choice variants => exact ⟨"\x7d", '}', rfl, rfl, by decide⟩
  | unspecified => exact endsInLine_singleton _ rfl (by decide)

/- ... and so do those of the whole file. -/
theorem endsInLine_sourceLines (entries : List (String × Shape)) :
    EndsInLine (sourceLines entries) :=
  EndsInLine.append_flatMap ⟨"package koinos", 's', rfl, rfl, by decide⟩
    (fun _ => (endsInLine_typeLines _ _).append _) entries

------------------------------------------------------------
-- Types
------------------------------------------------------------

/- The keyword and the definition for a shape. -/
def write : Shape → String × String
| .record fields =>
    ("type", " struct \x7b" ++ brokenLines (fields.map fieldText) ++
      "\n\x7d")
| .choice _ =>
    ("type", " struct \x7b\n\tValue interface\x7b\x7d\n\x7d")
| .unspecified => ("type", " = Opaque")

/- A field is written as its name and type are read. -/
theorem fieldLine_of_isReadFrom
    {value : Template.Value}
    {field : FieldDecl}
    (h : field.IsReadFrom value) :
    fieldLine value = "\n" ++ fieldText field := by
  rw [fieldLine, h.name, h.type, fieldText]
  simp only [Template.Value.display_plain, ← String.append_assoc]
  rfl

/- Only the shape counts for what is written. -/
theorem define_of_fits
    {shape : Shape}
    {form : Form}
    (h : shape.Fits form) :
    style.define form = .ok (write shape) := by
  cases h with
  | @record items fields hRead =>
      have hLines : items.map fieldLine =
          (fields.map fieldText).map ("\n" ++ ·) := by
        rw [List.map_map]
        exact map_eq_of_forall₂ hRead fun _ _ => fieldLine_of_isReadFrom
      change Except.ok ("type", structText items) = _
      rw [structText, hLines]
      rfl
  | choice => rfl
  | unspecified => rfl

theorem typeText_shapedType (entry : String × Shape) :
    style.typeText (SourceStyle.shapedType write entry) =
      brokenLines (entryLines entry) := by
  rcases entry with ⟨name, shape⟩
  rw [← String.toList_inj]
  cases shape <;>
    simp [SourceStyle.typeText, SourceStyle.shapedType, style, comment,
      TypeDecl.text, startText, write, entryLines, typeLines,
      brokenLines_cons, brokenLines_append, brokenLines_nil]

/- The types that are written for some shapes. -/
theorem typesOf_of_shapes
    {schema : Schema}
    {entries : List (String × Shape)}
    (h : schema.shapes? = some entries) :
    style.typesOf schema =
      .ok (entries.map (SourceStyle.shapedType write)) :=
  SourceStyle.typesOf_of_shapes define_of_fits h

------------------------------------------------------------
-- Generation
------------------------------------------------------------

/-
  If every body describes a shape, generating for Go succeeds and
  the source file has exactly the lines for these shapes.
-/
theorem generate_lines
    (fs : FileSystem)
    {schema : Schema}
    (h : schema.IsDescribed) :
    ∃ entries generation,
      schema.shapes? = some entries ∧
      (target.generate fs schema).outcome = .ok generation ∧
      generation.artifacts.get? "koinos.go" =
        some (ofLines (sourceLines entries)) ∧
      EndsInOneBreak (ofLines (sourceLines entries)) := by
  rcases h.exists_shapes with ⟨entries, hShapes⟩
  have hOutcome := outcome_generate fs schema
  simp only [typesOf_of_shapes hShapes] at hOutcome
  have hText : style.sourceText
      (entries.map (SourceStyle.shapedType write)) =
        ofLines (sourceLines entries) :=
    SourceStyle.sourceText_shapedTypes (by decide +kernel)
      typeText_shapedType entries
  rw [hText] at hOutcome
  exact ⟨entries, _, hShapes, hOutcome, rfl,
    endsInOneBreak_ofLines (endsInLine_sourceLines entries)⟩

/- All shapes, a name that stands twice, and more than fields say. -/
def describedSchema : Schema :=
  ⟨[⟨["a", "b", "Foo"], .object [("fields", .array
        [.object [("type", .text "a::Bar"), ("name", .text "max-size")],
          .object [("name", .text "iD"), ("doc", .null),
            ("type", .text "int32")]])]⟩,
      ⟨["a", "Bar"], .object [("variants", .array [])]⟩,
      ⟨["Top"], .object [("variants", .array [.text "a::Bar"])]⟩,
      ⟨["a", "Bar"], .object [("doc", .text "none")]⟩],
    [("version", .int 3)]⟩

theorem generate_lines_described :
    describedSchema.IsDescribed ∧
      ∃ entries generation,
        describedSchema.shapes? = some entries ∧
        (target.generate Builtin.fileSystem
          describedSchema).outcome = .ok generation ∧
        generation.artifacts.get? "koinos.go" =
          some (ofLines
            ["// Code generated by declgen. DO NOT EDIT.",
              "",
              "package koinos",
              "",
              "// a_b_Foo is declared as a::b::Foo.",
              "type a_b_Foo struct \x7b",
              "\tMax-Size a_Bar",
              "\tId int32",
              "\x7d",
              "",
              "// a_Bar is declared as a::Bar.",
              "type a_Bar = Opaque",
              "",
              "// Top is declared as Top.",
              "type Top struct \x7b",
              "\tValue interface\x7b\x7d",
              "\x7d"]) ∧
        EndsInOneBreak (ofLines (sourceLines entries)) := by
  have hDescribed : describedSchema.IsDescribed := by decide +kernel
  have hShapes : describedSchema.shapes? =
      some [("a::b::Foo", .record
          [⟨"max-size", "a::Bar"⟩, ⟨"iD", "int32"⟩]),
        ("a::Bar", .unspecified),
        ("Top", .choice ["a::Bar"])] := by
    decide +kernel
  rcases generate_lines Builtin.fileSystem hDescribed with
    ⟨entries, generation, hEntries, hOutcome, hFile, hEnd⟩
  refine ⟨hDescribed, entries, generation, hEntries, hOutcome, ?_, hEnd⟩
  obtain rfl := Option.some.inj (hShapes.symm.trans hEntries)
  rw [hFile]
  exact congrArg (some <| ofLines ·) (by decide +kernel)

end Bindery.Builtin.Golang
