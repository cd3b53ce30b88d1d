import Bindery.Proofs.RenderContext
import Bindery.Proofs.Target.Golang.Source
import Bindery.Proofs.Target.TypeScript.Source

/-
  This file says under which identifiers types are declared for
  Go and TypeScript.  Names that can be confused get the same
  one, and nothing reports it.

  Key definitions include:
    * `flatTargets`
    * `Identifies`

  Key theorems include:
    * `identifies_typesOf`
    * `generate_identifiers`
-/

namespace Bindery.Builtin

/- The targets for languages without nested names. -/
def flatTargets : List (BuiltinTarget × SourceStyle) :=
  [(Golang.target, Golang.style), (TypeScript.target, TypeScript.style)]

/-
  Types stand for keys: there is one for each key, in order,
  under its identifier.  Keys share an identifier exactly if they
  can be confused, so never if no key has the letter for gaps.
-/
structure Identifies
    (keys : List String)
    (types : List TypeDecl) : Prop where
  names : types.map TypeDecl.name = keys
  identifiers : ∀ t ∈ types, t.identifier = identifierOf t.name
  collisions : ∀ t ∈ types, ∀ other ∈ types,
    t.identifier = other.identifier ↔ Confusable t.name other.name
  plain : (∀ key ∈ keys, '_' ∉ key.toList) →
    (types.map TypeDecl.identifier).Nodup

section Types

variable {fs : FileSystem} {schema : Schema} {generation : Generation}
variable {target : BuiltinTarget} {style : SourceStyle}
variable {types : List TypeDecl}

/- The types of a source file stand for the qualified names. -/
theorem identifies_typesOf (h : style.typesOf schema = .ok types) :
    Identifies (Keyed.keys (RenderContext.ofSchema schema).declsByName)
      types := by
  have hNames := SourceStyle.names_of_typesOf h
  have hIdentifiers : ∀ t ∈ types, t.identifier = identifierOf t.name :=
    fun _ => SourceStyle.identifier_of_typesOf h
  refine ⟨hNames, hIdentifiers, fun t ht other hOther => ?_, ?_⟩
  · rw [hIdentifiers t ht, hIdentifiers other hOther, identifierOf_eq_iff]
  · -- Keys are distinct, and plain ones keep that as identifiers.
    intro hPlain
    have hNodup : (types.map TypeDecl.name).Nodup := by
      rw [hNames, RenderContext.keys_declsByName]
      exact nodup_eraseDups _
    rw [← hNames] at hPlain
    have hAll : types.map TypeDecl.identifier =
        (types.map TypeDecl.name).map identifierOf := by
      rw [List.map_map]
      exact List.map_inj_left.mpr hIdentifiers
    rw [hAll]
    refine hNodup.map_on fun key hKey other hOther hSame => ?_
    exact (identifierOf_eq_iff.mp hSame).eq_of_plain
      (hPlain key hKey) (hPlain other hOther)

/- What is generated is made of the types that can be written. -/
theorem exists_types_of_outcome
    {made : List TypeDecl → Generation}
    {failed : TemplateError → GenerationError}
    (hOutcome : (target.generate fs schema).outcome =
      match style.typesOf schema with
      | .ok types => .ok (made types)
      | .error cause => .error (failed cause))
    (h : (target.generate fs schema).outcome = .ok generation) :
    ∃ types, style.typesOf schema = .ok types ∧
      made types = generation := by
  rw [hOutcome] at h
  cases hTypes : style.typesOf schema with
  | error cause => simp [hTypes] at h
  | ok types => exact ⟨types, rfl, by simpa [hTypes] using h⟩

/- What is generated has a source file with the types. -/
theorem typesOf_of_generate
    (hTarget : (target, style) ∈ flatTargets)
    (h : (target.generate fs schema).outcome = .ok generation) :
    ∃ types, style.typesOf schema = .ok types ∧
      generation.artifacts.get? target.main =
        some (style.sourceText types) := by
  rcases List.mem_cons.mp hTarget with hGo | hRest
  · rcases Prod.mk.inj hGo with ⟨rfl, rfl⟩
    rcases exists_types_of_outcome (Golang.outcome_generate fs schema) h
      with ⟨types, hTypes, rfl⟩
    exact ⟨types, hTypes, rfl⟩
  · rcases Prod.mk.inj (List.mem_singleton.mp hRest) with ⟨rfl, rfl⟩
    rcases exists_types_of_outcome
      (TypeScript.outcome_generate fs schema) h with
      ⟨types, hTypes, rfl⟩
    exact ⟨types, hTypes, rfl⟩

/-
  The source file for Go, and the one for TypeScript, has one
  type for each qualified name, under the identifier of the name.
  So two names get the same identifier exactly if they can be
  confused.
-/
theorem generate_identifiers
    (hTarget : (target, style) ∈ flatTargets)
    (h : (target.generate fs schema).outcome = .ok generation) :
    ∃ types, style.typesOf schema = .ok types ∧
      generation.artifacts.get? target.main =
        some (style.sourceText types) ∧
      Identifies
        (Keyed.keys (RenderContext.ofSchema schema).declsByName)
        types := by
  rcases typesOf_of_generate hTarget h with ⟨types, hTypes, hFile⟩
  exact ⟨types, hTypes, hFile, identifies_typesOf hTypes⟩

/- Underscores within segments, and a colon after a separator. -/
def underscoredSchema : Schema :=
  ⟨[⟨["x_y", "z"], .object [("fields", .array [.object
        [("name", .text "id"), ("type", .text "x::y_z")]])]⟩,
      ⟨["x", "y_z"], .object [("variants", .array [])]⟩,
      ⟨["a", ":b"], .object []⟩], []⟩

/- Two of three names are declared under one identifier. -/
theorem generate_identifiers_underscored :
    (TypeScript.target, TypeScript.style) ∈ flatTargets ∧
      ∃ generation types,
        (TypeScript.target.generate Builtin.fileSystem
          underscoredSchema).outcome = .ok generation ∧
        TypeScript.style.typesOf underscoredSchema = .ok types ∧
        generation.artifacts.get? "koinos.ts" =
          some (TypeScript.style.sourceText types) ∧
        Identifies ["x_y::z", "x::y_z", "a:::b"] types ∧
        types.map TypeDecl.identifier = ["x_y_z", "x_y_z", "a_:b"] := by
  have hTarget : (TypeScript.target, TypeScript.style) ∈ flatTargets :=
    List.mem_cons_of_mem _ (List.mem_singleton_self _)
  have hOutcome := TypeScript.outcome_generate Builtin.fileSystem
    underscoredSchema
  have hMade : TypeScript.style.typesOf underscoredSchema =
      .ok [⟨"x_y::z", "export interface", "x_y_z",
          " \x7b\n  id: x_y_z;\n\x7d"⟩,
        ⟨"x::y_z", "export type", "x_y_z", " = never;"⟩,
        ⟨"a:::b", "export type", "a_:b", " = Opaque;"⟩] := by
    decide +kernel
  have hKeys : Keyed.keys
      (RenderContext.ofSchema underscoredSchema).declsByName =
        ["x_y::z", "x::y_z", "a:::b"] := by
    decide +kernel
  simp only [hMade] at hOutcome
  rcases generate_identifiers hTarget hOutcome with
    ⟨types, hTypes, hFile, hIdentifies⟩
  rw [hKeys] at hIdentifies
  refine ⟨hTarget, _, types, hOutcome, hTypes, hFile, hIdentifies, ?_⟩
  obtain rfl := Except.ok.inj (hMade.symm.trans hTypes)
  rfl

end Types

/- Names that differ, but not in their identifiers. -/
def confusableSchema : Schema :=
  ⟨[⟨["a", "b"], .object []⟩, ⟨["a_b"], .object []⟩], []⟩

/-
  Two names are declared under one identifier, in both files.
-/
theorem generate_identifiers_confused :
    Keyed.keys (RenderContext.ofSchema confusableSchema).declsByName =
        ["a::b", "a_b"] ∧
      ∃ go ts,
        (Golang.target.generate Builtin.fileSystem
          confusableSchema).outcome = .ok go ∧
        (TypeScript.target.generate Builtin.fileSystem
          confusableSchema).outcome = .ok ts ∧
        go.artifacts.get? "koinos.go" =
          some ("// Code generated by declgen. DO NOT EDIT.\n\n" ++
            "package koinos\n\n" ++
            "// a_b is declared as a::b.\ntype a_b = Opaque\n\n" ++
            "// a_b is declared as a_b.\ntype a_b = Opaque\n") ∧
        ts.artifacts.get? "koinos.ts" =
          some ("// Code generated by declgen. DO NOT EDIT.\n\n" ++
            "import \x7b Opaque \x7d from \"./rt/Opaque\";\n" ++
            "import * as rt from \"./rt/basetypes\";\n\n" ++
            "/** a::b */\nexport type a_b = Opaque;\n\n" ++
            "/** a_b */\nexport type a_b = Opaque;\n") := by
  have hGo := Golang.outcome_generate Builtin.fileSystem confusableSchema
  have hGoTypes : Golang.style.typesOf confusableSchema =
      .ok [⟨"a::b", "type", "a_b", " = Opaque"⟩,
        ⟨"a_b", "type", "a_b", " = Opaque"⟩] := by
    decide +kernel
  have hTs := TypeScript.outcome_generate Builtin.fileSystem
    confusableSchema
  have hTsTypes : TypeScript.style.typesOf confusableSchema =
      .ok [⟨"a::b", "export type", "a_b", " = Opaque;"⟩,
        ⟨"a_b", "export type", "a_b", " = Opaque;"⟩] := by
    decide +kernel
  simp only [hGoTypes] at hGo
  simp only [hTsTypes] at hTs
  refine ⟨by decide +kernel, _, _, hGo, hTs, ?_, ?_⟩
  · exact congrArg some (by decide +kernel)
  · exact congrArg some (by decide +kernel)

end Bindery.Builtin
