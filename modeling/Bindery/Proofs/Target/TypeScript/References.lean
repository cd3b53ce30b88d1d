import Bindery.Proofs.QualifiedName
import Bindery.Proofs.Target.Collisions
import Bindery.Proofs.Target.TypeScript.Lines

/-
  This file is about references to declared types in the module
  for TypeScript.  An alternative is always written as the type
  that it names.  A field is, too, unless it names a declaration
  without enclosing names: then it refers to a basic type.

  Key definitions include:
    * `IsExported`
    * `Refers`

  Key theorems include:
    * `isExported_iff`
    * `isExported_fieldReference_iff`
    * `generate_references`
-/

namespace Bindery.Builtin.TypeScript

------------------------------------------------------------
-- References
------------------------------------------------------------

/- Whether a name is exported under an identifier. -/
def IsExported
    (types : List TypeDecl)
    (name identifier : String) : Prop :=
  ∃ t ∈ types, t.name = name ∧ t.identifier = identifier

section References

variable {schema : Schema} {types : List TypeDecl} {d : Decl}

theorem isExported_iff
    {identifier : String}
    (hTypes : style.typesOf schema = .ok types)
    (hd : d ∈ schema.decls) :
    IsExported types d.qualifiedName identifier ↔
      identifierOf d.qualifiedName = identifier := by
  constructor
  · rintro ⟨t, ht, hName, rfl⟩
    rw [SourceStyle.identifier_of_typesOf hTypes ht, hName]
  · rintro rfl
    have hKey : d.qualifiedName ∈ types.map TypeDecl.name := by
      rw [SourceStyle.names_of_typesOf hTypes]
      exact RenderContext.mem_keys_declsByName_iff.mpr ⟨d, hd, rfl⟩
    rcases List.mem_map.mp hKey with ⟨t, ht, hName⟩
    refine ⟨t, ht, hName, ?_⟩
    rw [SourceStyle.identifier_of_typesOf hTypes ht, hName]

/- A field refers to a basic type if it names a bare one, ... -/
theorem fieldReference_of_isBare (h : IsBare d.name) :
    fieldReference d.qualifiedName = "rt." ++ d.qualifiedName := by
  have hNot : ¬ separator <:+: d.qualifiedName.toList :=
    fun hIn => separator_infix_qualifiedName_iff.mp hIn h
  rw [fieldReference, if_neg (mt Text.occursIn_iff_isInfix.mp hNot)]

/- ... which is never what such a declaration is exported as. -/
theorem isExported_fieldReference_iff
    (hTypes : style.typesOf schema = .ok types)
    (hd : d ∈ schema.decls) :
    IsExported types d.qualifiedName (fieldReference d.qualifiedName) ↔
      ¬ IsBare d.name := by
  rw [isExported_iff hTypes hd]
  constructor
  · intro hSame hBare
    have hNot : ¬ separator <:+: d.qualifiedName.toList :=
      fun hIn => separator_infix_qualifiedName_iff.mp hIn hBare
    rw [fieldReference_of_isBare hBare, identifierOf_of_not_infix hNot]
      at hSame
    have hLength := congrArg String.length hSame
    rw [String.length_append, show "rt.".length = 3 from rfl] at hLength
    omega
  · intro hBare
    have hIn : separator <:+: d.qualifiedName.toList :=
      separator_infix_qualifiedName_iff.mpr hBare
    rw [fieldReference, if_pos (Text.occursIn_iff_isInfix.mpr hIn)]

/-
  How the type for a body refers to declarations: by what they
  are exported as, but for fields whose type is a bare name.
-/
structure Refers
    (schema : Schema)
    (types : List TypeDecl)
    (entry : String × Json) : Prop where
  fields : ∀ fields, Shape.ofBody? entry.2 = some (.record fields) →
    SourceStyle.shapedType write (entry.1, .record fields) ∈ types ∧
    ∀ field ∈ fields, ∀ d ∈ schema.decls, d.qualifiedName = field.type →
      (IsExported types field.type (fieldReference field.type) ↔
        ¬ IsBare d.name) ∧
      (IsBare d.name →
        fieldReference field.type = "rt." ++ field.type)
  variants : ∀ variants, Shape.ofBody? entry.2 = some (.choice variants) →
    SourceStyle.shapedType write (entry.1, .choice variants) ∈ types ∧
    ∀ variant ∈ variants, ∀ d ∈ schema.decls, d.qualifiedName = variant →
      IsExported types variant (identifierOf variant)

theorem refers_typesOf
    {entry : String × Json}
    (hTypes : style.typesOf schema = .ok types)
    (hEntry : entry ∈ (RenderContext.ofSchema schema).declsByName) :
    Refers schema types entry := by
  constructor
  · intro fields hShape
    refine ⟨SourceStyle.shapedType_mem_types define_of_fits hTypes hEntry
      hShape, ?_⟩
    intro field _ d hd hName
    rw [← hName]
    exact ⟨isExported_fieldReference_iff hTypes hd,
      fieldReference_of_isBare⟩
  · intro variants hShape
    refine ⟨SourceStyle.shapedType_mem_types define_of_fits hTypes hEntry
      hShape, ?_⟩
    intro variant _ d hd hName
    rw [← hName]
    exact (isExported_iff hTypes hd).mpr rfl

end References

------------------------------------------------------------
-- Generation
------------------------------------------------------------

/-
  Generating for TypeScript succeeds if every body describes a
  shape.  Whenever it succeeds, alternatives and fields refer to
  the declared types that they name, except that a field cannot
  refer to a declaration with a bare name.
-/
theorem generate_references (fs : FileSystem) (schema : Schema) :
    (schema.IsDescribed →
      ∃ generation, (target.generate fs schema).outcome =
        .ok generation) ∧
    ∀ generation, (target.generate fs schema).outcome = .ok generation →
      ∃ types, style.typesOf schema = .ok types ∧
        generation.artifacts.get? "koinos.ts" =
          some (style.sourceText types) ∧
        types.map TypeDecl.name =
          Keyed.keys (RenderContext.ofSchema schema).declsByName ∧
        ∀ entry ∈ (RenderContext.ofSchema schema).declsByName,
          Refers schema types entry := by
  have hOutcome := outcome_generate fs schema
  constructor
  · intro hDescribed
    rcases hDescribed.exists_shapes with ⟨entries, hShapes⟩
    have hTypes := SourceStyle.typesOf_of_shapes define_of_fits hShapes
    simp only [hTypes] at hOutcome
    exact ⟨_, hOutcome⟩
  · intro generation hGenerated
    rcases exists_types_of_outcome hOutcome hGenerated with
      ⟨types, hTypes, rfl⟩
    exact ⟨types, hTypes, rfl, SourceStyle.names_of_typesOf hTypes,
      fun _ => refers_typesOf hTypes⟩

/- Fields and alternatives that name a bare and a nested type. -/
def referringSchema : Schema :=
  ⟨[⟨["Top"], .object [("fields", .array
        [.object [("name", .text "self"), ("type", .text "Top")],
          .object [("name", .text "bar"), ("type", .text "a::Bar")]])]⟩,
      ⟨["a", "Bar"], .object
        [("variants", .array [.text "Top", .text "a::Bar"])]⟩], []⟩

/- The first field refers to what no module exports. -/
theorem generate_references_bare :
    referringSchema.IsDescribed ∧
      ∃ generation types,
        (target.generate Builtin.fileSystem referringSchema).outcome =
          .ok generation ∧
        generation.artifacts.get? "koinos.ts" =
          some ("// Code generated by declgen. DO NOT EDIT.\n\n" ++
            "import \x7b Opaque \x7d from \"./rt/Opaque\";\n" ++
            "import * as rt from \"./rt/basetypes\";\n\n" ++
            "/** Top */\nexport interface Top \x7b\n" ++
            "  self: rt.Top;\n  bar: a_Bar;\n\x7d\n\n" ++
            "/** a::Bar */\nexport type a_Bar =\n" ++
            "  | Top\n  | a_Bar;\n") ∧
        ¬ IsExported types "Top" (fieldReference "Top") ∧
        IsExported types "a::Bar" (fieldReference "a::Bar") ∧
        IsExported types "Top" (identifierOf "Top") := by
  have hDescribed : referringSchema.IsDescribed := by decide +kernel
  have hAll := generate_references Builtin.fileSystem referringSchema
  rcases hAll.1 hDescribed with ⟨generation, hOutcome⟩
  rcases hAll.2 generation hOutcome with
    ⟨types, hTypes, hFile, -, hRefers⟩
  have hMade : style.typesOf referringSchema =
      .ok [⟨"Top", "export interface", "Top",
          " \x7b\n  self: rt.Top;\n  bar: a_Bar;\n\x7d"⟩,
        ⟨"a::Bar", "export type", "a_Bar",
          " =\n  | Top\n  | a_Bar;"⟩] := by
    decide +kernel
  have hFields := (hRefers ("Top", _) List.mem_cons_self).fields
    [⟨"self", "Top"⟩, ⟨"bar", "a::Bar"⟩] (by decide +kernel)
  have hVariants := (hRefers ("a::Bar", _)
    (List.mem_cons_of_mem _ List.mem_cons_self)).variants
    ["Top", "a::Bar"] (by decide +kernel)
  refine ⟨hDescribed, generation, types, hOutcome, ?_, ?_, ?_, ?_⟩
  · obtain rfl := Except.ok.inj (hMade.symm.trans hTypes)
    rw [hFile]
    exact congrArg some (by decide +kernel)
  · have hSelf := (hFields.2 ⟨"self", "Top"⟩ List.mem_cons_self
      _ List.mem_cons_self rfl).1
    exact mt hSelf.mp (by decide)
  · have hBar := (hFields.2 ⟨"bar", "a::Bar"⟩
      (List.mem_cons_of_mem _ List.mem_cons_self)
      _ (List.mem_cons_of_mem _ List.mem_cons_self) rfl).1
    exact hBar.mpr (by decide)
  · exact hVariants.2 "Top" List.mem_cons_self _ List.mem_cons_self rfl

end Bindery.Builtin.TypeScript
