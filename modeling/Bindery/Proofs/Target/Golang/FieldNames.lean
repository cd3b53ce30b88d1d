import Bindery.Proofs.Target.Collisions
import Bindery.Proofs.Target.Golang.Lines
import Bindery.Proofs.Text.TitleCase

/-
  This file is about the names of fields in the structs for Go.
  They are written in title case, so fields share a name if they
  have the same words but for letter case, and nothing reports it.

  Key definitions include:
    * `fieldNames`
    * `NamesFields`

  Key theorems include:
    * `fieldName_eq_iff`
    * `nodup_fieldNames_iff`
    * `nodup_fieldNames_iff_of_ascii`
    * `generate_fieldNames`
-/

namespace Bindery.Builtin.Golang

open Text

------------------------------------------------------------
-- Names of Fields
------------------------------------------------------------

/- The names of some fields in their struct. -/
def fieldNames (fields : List FieldDecl) : List String :=
  fields.map fun field => fieldName field.name

section Names

variable {fields : List FieldDecl} {first second : String}

theorem fieldName_eq_iff :
    fieldName first = fieldName second ↔
      SameWords first.toList second.toList := by
  rw [fieldName, fieldName, String.ofList_inj, title_eq_iff]

theorem fieldName_eq_iff_of_ascii
    (hFirst : ∀ c ∈ first.toList, c.toNat < 128)
    (hSecond : ∀ c ∈ second.toList, c.toNat < 128) :
    fieldName first = fieldName second ↔
      first.toList.map Char.toLower = second.toList.map Char.toLower := by
  rw [fieldName, fieldName, String.ofList_inj,
    title_eq_iff_of_ascii hFirst hSecond]

/- Fields keep distinct names if no two have the same words, ... -/
theorem nodup_fieldNames_iff :
    (fieldNames fields).Nodup ↔
      fields.Pairwise fun field other =>
        ¬ SameWords field.name.toList other.name.toList := by
  rw [fieldNames, List.Nodup, List.pairwise_map]
  simp only [ne_eq, fieldName_eq_iff]

/- ... which in ASCII means that no two differ in case only. -/
theorem nodup_fieldNames_iff_of_ascii
    (h : ∀ field ∈ fields, ∀ c ∈ field.name.toList, c.toNat < 128) :
    (fieldNames fields).Nodup ↔
      (fields.map fun field =>
        field.name.toList.map Char.toLower).Nodup := by
  rw [fieldNames, List.Nodup, List.Nodup, List.pairwise_map,
    List.pairwise_map]
  refine List.Pairwise.iff_of_mem fun {field other} hField hOther => ?_
  exact not_congr
    (fieldName_eq_iff_of_ascii (h field hField) (h other hOther))

end Names

------------------------------------------------------------
-- Generation
------------------------------------------------------------

/-
  How the struct under a name declares its fields: two of them
  share a name exactly if they have the same words.  For names in
  ASCII, only the case of letters can be lost.
-/
structure NamesFields
    (types : List TypeDecl)
    (name : String)
    (fields : List FieldDecl) : Prop where
  written : SourceStyle.shapedType write (name, .record fields) ∈ types
  same : ∀ field ∈ fields, ∀ other ∈ fields,
    fieldName field.name = fieldName other.name ↔
      SameWords field.name.toList other.name.toList
  distinct : (fieldNames fields).Nodup ↔
    fields.Pairwise fun field other =>
      ¬ SameWords field.name.toList other.name.toList
  ascii : (∀ field ∈ fields, ∀ c ∈ field.name.toList, c.toNat < 128) →
    ((fieldNames fields).Nodup ↔
      (fields.map fun field =>
        field.name.toList.map Char.toLower).Nodup)

/-
  Generating for Go succeeds if every body describes a shape.
  Whenever it succeeds, there is a struct for every body with
  fields.  Their names in it are distinct exactly if no two have
  the same words but for letter case.
-/
theorem generate_fieldNames (fs : FileSystem) (schema : Schema) :
    (schema.IsDescribed →
      ∃ generation, (target.generate fs schema).outcome =
        .ok generation) ∧
    ∀ generation, (target.generate fs schema).outcome = .ok generation →
      ∃ types, style.typesOf schema = .ok types ∧
        generation.artifacts.get? "koinos.go" =
          some (style.sourceText types) ∧
        ∀ entry ∈ (RenderContext.ofSchema schema).declsByName,
          ∀ fields, Shape.ofBody? entry.2 = some (.record fields) →
            NamesFields types entry.1 fields := by
  have hOutcome := outcome_generate fs schema
  constructor
  · intro hDescribed
    rcases hDescribed.exists_shapes with ⟨entries, hShapes⟩
    simp only [typesOf_of_shapes hShapes] at hOutcome
    exact ⟨_, hOutcome⟩
  · intro generation hGenerated
    rcases exists_types_of_outcome hOutcome hGenerated with
      ⟨types, hTypes, rfl⟩
    refine ⟨types, hTypes, rfl, fun entry hEntry fields hShape => ?_⟩
    exact ⟨SourceStyle.shapedType_mem_types define_of_fits hTypes hEntry
        hShape,
      fun _ _ _ _ => fieldName_eq_iff,
      nodup_fieldNames_iff,
      nodup_fieldNames_iff_of_ascii⟩

/- Names that keep apart, and two that meet in one letter. -/
def spelledSchema : Schema :=
  ⟨[⟨["A"], .object [("fields", .array
        [.object [("name", .text "max-size"), ("type", .text "A")],
          .object [("name", .text "Max_size"), ("type", .text "A")],
          .object [("name", .text "MAXSIZE"), ("type", .text "A")]])]⟩,
      ⟨["B"], .object [("fields", .array
        [.object [("name", .text "ıd"), ("type", .text "A")],
          .object [("name", .text "iD"), ("type", .text "A")]])]⟩], []⟩

theorem generate_fieldNames_spelled :
    spelledSchema.IsDescribed ∧
      ∃ generation types,
        (target.generate Builtin.fileSystem spelledSchema).outcome =
          .ok generation ∧
        generation.artifacts.get? "koinos.go" =
          some ("// Code generated by declgen. DO NOT EDIT.\n\n" ++
            "package koinos\n\n" ++
            "// A is declared as A.\ntype A struct \x7b\n" ++
            "\tMax-Size A\n\tMax_Size A\n\tMaxsize A\n\x7d\n\n" ++
            "// B is declared as B.\ntype B struct \x7b\n" ++
            "\tId A\n\tId A\n\x7d\n") ∧
        NamesFields types "A"
          [⟨"max-size", "A"⟩, ⟨"Max_size", "A"⟩, ⟨"MAXSIZE", "A"⟩] ∧
        fieldNames
            [⟨"max-size", "A"⟩, ⟨"Max_size", "A"⟩, ⟨"MAXSIZE", "A"⟩] =
          ["Max-Size", "Max_Size", "Maxsize"] ∧
        NamesFields types "B" [⟨"ıd", "A"⟩, ⟨"iD", "A"⟩] ∧
        ¬ (fieldNames [⟨"ıd", "A"⟩, ⟨"iD", "A"⟩]).Nodup := by
  have hDescribed : spelledSchema.IsDescribed := by decide +kernel
  have hAll := generate_fieldNames Builtin.fileSystem spelledSchema
  rcases hAll.1 hDescribed with ⟨generation, hOutcome⟩
  rcases hAll.2 generation hOutcome with ⟨types, hTypes, hFile, hNames⟩
  have hMade : style.typesOf spelledSchema =
      .ok [⟨"A", "type", "A", " struct \x7b\n" ++
          "\tMax-Size A\n\tMax_Size A\n\tMaxsize A\n\x7d"⟩,
        ⟨"B", "type", "B", " struct \x7b\n\tId A\n\tId A\n\x7d"⟩] := by
    decide +kernel
  have hFirst := hNames ("A", _) List.mem_cons_self
    [⟨"max-size", "A"⟩, ⟨"Max_size", "A"⟩, ⟨"MAXSIZE", "A"⟩]
    (by decide +kernel)
  have hSecond := hNames ("B", _)
    (List.mem_cons_of_mem _ List.mem_cons_self)
    [⟨"ıd", "A"⟩, ⟨"iD", "A"⟩] (by decide +kernel)
  refine ⟨hDescribed, generation, types, hOutcome, ?_, hFirst,
    by decide +kernel, hSecond, by decide +kernel⟩
  obtain rfl := Except.ok.inj (hMade.symm.trans hTypes)
  rw [hFile]
  exact congrArg some (by decide +kernel)

/- Two names that differ in the case of one letter. -/
def casedSchema : Schema :=
  ⟨[⟨["A"], .object [("fields", .array
      [.object [("name", .text "id"), ("type", .text "int32")],
        .object [("name", .text "ID"), ("type", .text "int32")]])]⟩], []⟩

/- A struct declares two fields with distinct names under one. -/
theorem generate_fieldNames_cased :
    casedSchema.shapes? =
        some [("A", .record [⟨"id", "int32"⟩, ⟨"ID", "int32"⟩])] ∧
      ["id", "ID"].Nodup ∧
      ∃ generation,
        (target.generate Builtin.fileSystem casedSchema).outcome =
          .ok generation ∧
        generation.artifacts.get? "koinos.go" =
          some ("// Code generated by declgen. DO NOT EDIT.\n\n" ++
            "package koinos\n\n" ++
            "// A is declared as A.\ntype A struct \x7b\n" ++
            "\tId int32\n\tId int32\n\x7d\n") ∧
        fieldNames [⟨"id", "int32"⟩, ⟨"ID", "int32"⟩] = ["Id", "Id"] ∧
        ¬ ["Id", "Id"].Nodup := by
  have hOutcome := outcome_generate Builtin.fileSystem casedSchema
  have hTypes : style.typesOf casedSchema =
      .ok [⟨"A", "type", "A",
        " struct \x7b\n\tId int32\n\tId int32\n\x7d"⟩] := by
    decide +kernel
  simp only [hTypes] at hOutcome
  refine ⟨by decide +kernel, by decide, _, hOutcome, ?_,
    by decide +kernel, by decide⟩
  exact congrArg some (by decide +kernel)

end Bindery.Builtin.Golang
