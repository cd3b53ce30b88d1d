import Bindery.Proofs.Target.Cpp.Headers
import Bindery.Proofs.Target.SourceLines

/-
  This file says which lines the two headers for C++ have, if
  every body describes a shape.

  Key definitions include:
    * `blockLines`
    * `forwardLines`
    * `definitionLines`
    * `typesLines`

  Key theorems include:
    * `inNamespace_brokenLines`
    * `bodyText_of_fits`
    * `definitionsOf_of_shapes`
    * `generate_headerLines`
-/

namespace Bindery.Builtin.Cpp

------------------------------------------------------------
-- Lines
------------------------------------------------------------

/- The lines at the start of a header that includes another one. -/
def prefaceLines (other : String) : List String :=
  ["#pragma once",
    "// Code generated by declgen. DO NOT EDIT.",
    "",
    "#include \"" ++ other ++ "\""]

/-
  The lines of a namespace, after an empty one.  In place of
  those that open and close it, the global one has empty lines.
-/
def blockLines (space : String) (content : List String) : List String :=
  ["", opening space] ++ content ++ [closing space]

/- The line that declares a type. -/
def declarationText (name : String) : String :=
  "struct " ++ name ++ ";"

/- The lines of the header with forward declarations. -/
def forwardLines (schema : Schema) : List String :=
  prefaceLines "../rt/basetypes.hpp" ++
    (RenderContext.ofSchema schema).declNamespaces.flatMap fun space =>
      blockLines space
        ((namesIn schema.decls space).map declarationText)

/- The line of a field. -/
def fieldText (field : FieldDecl) : String :=
  "   " ++ field.type ++ " " ++ field.name ++ ";"

/-
  What follows the name of a type with a shape: the rest of its
  line, and the lines after it.
-/
def restLines : Shape → String × List String
| .record fields => (" \x7b", fields.map fieldText ++ ["\x7d;"])
| .choice variants =>
    (" : std::variant< " ++ String.intercalate ", " variants ++
        " > \x7b",
      ["   using variant::variant;", "\x7d;"])
| .unspecified => (" \x7b", ["   koinos::opaque data;", "\x7d;"])

/- The lines that define a type. -/
def definitionLines (name : String) (shape : Shape) : List String :=
  ("struct " ++ name ++ (restLines shape).1) :: (restLines shape).2

/- The lines of a qualified name, which says where its type stands. -/
def entryLines (entry : String × Shape) : List String :=
  blockLines (namespaceOf entry.1)
    (definitionLines (localName entry.1) entry.2)

/- The lines of the header with definitions. -/
def typesLines (entries : List (String × Shape)) : List String :=
  prefaceLines "types_fwd.hpp" ++ entries.flatMap entryLines

/- What stands in a namespace is made of lines if its content is. -/
theorem inNamespace_brokenLines
    (space : String)
    (content : List String) :
    inNamespace space (brokenLines content) =
      brokenLines (blockLines space content) := by
  rw [← String.toList_inj]
  simp [inNamespace, blockLines, brokenLines_cons, brokenLines_append,
    brokenLines_nil]

------------------------------------------------------------
-- Forward Declarations
------------------------------------------------------------

/- Each type that is declared in a namespace has a line there. -/
theorem text_forwardBlock (schema : Schema) (space : String) :
    (forwardBlock schema space).text =
      brokenLines (blockLines space
        ((namesIn schema.decls space).map declarationText)) := by
  have hLine : forwardLine = fun name => "\n" ++ declarationText name := by
    funext name
    rw [forwardLine, declarationText, ← String.append_assoc,
      ← String.append_assoc]
    rfl
  have hNames : String.join
      ((namesIn schema.decls space).map forwardLine) =
        brokenLines
          ((namesIn schema.decls space).map declarationText) := by
    rw [brokenLines, List.map_map, hLine]
    rfl
  rw [← inNamespace_brokenLines, ← hNames]
  rfl

theorem forwardText_forwardBlocks (schema : Schema) :
    forwardText (forwardBlocks schema) =
      ofLines (forwardLines schema) := by
  rw [forwardText, forwardBlocks, List.map_map]
  exact (ofLines_append_flatMap (by decide +kernel)
    (text_forwardBlock schema) _).symm

------------------------------------------------------------
-- Definitions
------------------------------------------------------------

/- What follows the name of a type with a shape. -/
def write (shape : Shape) : String :=
  (restLines shape).1 ++ brokenLines (restLines shape).2

/- The definition for a qualified name and a shape. -/
def shapedDefinition (entry : String × Shape) : Definition :=
  ⟨namespaceOf entry.1, localName entry.1, write entry.2⟩

/- A field is written as its name and type are read. -/
theorem fieldLine_of_isReadFrom
    {value : Template.Value}
    {field : FieldDecl}
    (h : field.IsReadFrom value) :
    fieldLine value = "\n" ++ fieldText field := by
  rw [fieldLine, h.name, h.type, fieldText]
  simp only [Template.Value.display_plain, ← String.append_assoc]
  rfl

/- Only the shape counts for what is written. -/
theorem bodyText_of_fits
    {shape : Shape}
    {form : Form}
    (h : shape.Fits form) :
    bodyText form = .ok (write shape) := by
  cases h with
  | @record items fields hRead =>
      have hLines : items.map fieldLine =
          (fields.map fieldText).map ("\n" ++ ·) := by
        rw [List.map_map]
        exact map_eq_of_forall₂ hRead fun _ _ => fieldLine_of_isReadFrom
      change Except.ok (" \x7b" ++ String.join (items.map fieldLine) ++
          "\n\x7d;") =
        .ok (" \x7b" ++
          brokenLines (fields.map fieldText ++ ["\x7d;"]))
      rw [hLines, brokenLines_append, ← String.append_assoc]
      rfl
  | @choice variants =>
      have hNames : (variants.map Template.Value.plain).map
          Template.Value.display = variants := by
        rw [List.map_map]
        exact List.map_id _
      change Except.ok (" : std::variant< " ++ String.intercalate ", "
          ((variants.map Template.Value.plain).map
            Template.Value.display) ++
          " > \x7b\n   using variant::variant;\n\x7d;") =
        .ok (" : std::variant< " ++ String.intercalate ", " variants ++
          " > \x7b" ++
          brokenLines ["   using variant::variant;", "\x7d;"])
      rw [hNames, String.append_assoc, String.append_assoc,
        String.append_assoc]
      rfl
  | unspecified => rfl

theorem definitionOf_of_shape
    {name : String}
    {body : Json}
    {shape : Shape}
    (h : Shape.ofBody? body = some shape) :
    definitionOf (name, body) = .ok (shapedDefinition (name, shape)) := by
  rw [definitionOf, bodyText_of_fits (Shape.fits_ofBody h)]
  rfl

/- The definitions that are written for some shapes. -/
theorem definitionsOf_of_shapes
    {schema : Schema}
    {entries : List (String × Shape)}
    (h : schema.shapes? = some entries) :
    definitionsOf schema = .ok (entries.map shapedDefinition) :=
  Schema.mapM_of_shapes definitionOf_of_shape h

theorem brokenLines_definitionLines (name : String) (shape : Shape) :
    brokenLines (definitionLines name shape) =
      "\nstruct " ++ name ++ write shape := by
  rw [definitionLines, brokenLines_cons, write]
  simp only [← String.append_assoc]
  rfl

theorem text_shapedDefinition (entry : String × Shape) :
    (shapedDefinition entry).text = brokenLines (entryLines entry) := by
  rw [entryLines, ← inNamespace_brokenLines, brokenLines_definitionLines]
  rfl

theorem typesText_shapedDefinitions (entries : List (String × Shape)) :
    typesText (entries.map shapedDefinition) =
      ofLines (typesLines entries) := by
  rw [typesText, List.map_map]
  exact (ofLines_append_flatMap (by decide +kernel)
    text_shapedDefinition entries).symm

------------------------------------------------------------
-- Generation
------------------------------------------------------------

/-
  If every body describes a shape, generating for C++ succeeds.
  One header has exactly the lines of the namespaces with what is
  declared in them, the other one those for the shapes.
-/
theorem generate_headerLines
    (fs : FileSystem)
    {schema : Schema}
    (h : schema.IsDescribed) :
    ∃ entries generation,
      schema.shapes? = some entries ∧
      (target.generate fs schema).outcome = .ok generation ∧
      generation.artifacts.get? "koinos/types_fwd.hpp" =
        some (ofLines (forwardLines schema)) ∧
      generation.artifacts.get? "koinos/types.hpp" =
        some (ofLines (typesLines entries)) := by
  rcases h.exists_shapes with ⟨entries, hShapes⟩
  have hOutcome := outcome_generate fs schema
  simp only [definitionsOf_of_shapes hShapes] at hOutcome
  rw [forwardText_forwardBlocks, typesText_shapedDefinitions]
    at hOutcome
  exact ⟨entries, _, hShapes, hOutcome, rfl, rfl⟩

/- A global type, and one that is declared twice before another. -/
def layeredSchema : Schema :=
  ⟨[⟨["a", "b", "Foo"], .object [("fields", .array
        [.object [("type", .text "a::Bar"), ("name", .text "bar")],
          .object [("name", .text "id"), ("type", .text "int32")]])]⟩,
      ⟨["a", "Bar"], .object []⟩,
      ⟨["Top"], .object [("doc", .null)]⟩,
      ⟨["a", "Bar"], .object
        [("variants", .array [.text "Top", .text "a::b::Foo"])]⟩,
      ⟨["a", "Baz"], .object [("variants", .array [])]⟩], []⟩

theorem generate_headerLines_layered :
    layeredSchema.IsDescribed ∧
      ∃ entries generation,
        layeredSchema.shapes? = some entries ∧
        (target.generate Builtin.fileSystem layeredSchema).outcome =
          .ok generation ∧
        generation.artifacts.get? "koinos/types_fwd.hpp" =
          some (ofLines
            ["#pragma once",
              "// Code generated by declgen. DO NOT EDIT.",
              "",
              "#include \"../rt/basetypes.hpp\"",
              "",
              "",
              "struct Top;",
              "",
              "",
              "namespace a \x7b",
              "struct Bar;",
              "struct Bar;",
              "struct Baz;",
              "\x7d // namespace a",
              "",
              "namespace a::b \x7b",
              "struct Foo;",
              "\x7d // namespace a::b"]) ∧
        generation.artifacts.get? "koinos/types.hpp" =
          some (ofLines
            ["#pragma once",
              "// Code generated by declgen. DO NOT EDIT.",
              "",
              "#include \"types_fwd.hpp\"",
              "",
              "namespace a::b \x7b",
              "struct Foo \x7b",
              "   a::Bar bar;",
              "   int32 id;",
              "\x7d;",
              "\x7d // namespace a::b",
              "",
              "namespace a \x7b",
              "struct Bar : std::variant< Top, a::b::Foo > \x7b",
              "   using variant::variant;",
              "\x7d;",
              "\x7d // namespace a",
              "",
              "",
              "struct Top \x7b",
              "   koinos::opaque data;",
              "\x7d;",
              "",
              "",
              "namespace a \x7b",
              "struct Baz : std::variant<  > \x7b",
              "   using variant::variant;",
              "\x7d;",
              "\x7d // namespace a"]) := by
  have hDescribed : layeredSchema.IsDescribed := by decide +kernel
  have hShapes : layeredSchema.shapes? =
      some [("a::b::Foo", .record
          [⟨"bar", "a::Bar"⟩, ⟨"id", "int32"⟩]),
        ("a::Bar", .choice ["Top", "a::b::Foo"]),
        ("Top", .unspecified),
        ("a::Baz", .choice [])] := by
    decide +kernel
  rcases generate_headerLines Builtin.fileSystem hDescribed with
    ⟨entries, generation, hEntries, hOutcome, hForward, hTypes⟩
  refine ⟨hDescribed, entries, generation, hEntries, hOutcome, ?_, ?_⟩
  · rw [hForward]
    exact congrArg (some <| ofLines ·) (by decide +kernel)
  · obtain rfl := Option.some.inj (hShapes.symm.trans hEntries)
    rw [hTypes]
    exact congrArg (some <| ofLines ·) (by decide +kernel)

end Bindery.Builtin.Cpp
