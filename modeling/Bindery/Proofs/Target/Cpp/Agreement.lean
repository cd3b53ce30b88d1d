import Bindery.Proofs.QualifiedName
import Bindery.Proofs.RenderContext
import Bindery.Proofs.Target.Cpp.Headers

/-
  This file compares the headers for C++.  The header with
  definitions cuts qualified names, the one with forward
  declarations goes by segments; they agree if the last segment
  of every name can be told from the others.

  Key definitions include:
    * `Defines`
    * `Declares`
    * `Agree`

  Key theorems include:
    * `defines_iff`
    * `declares_iff`
    * `generate_headers`
-/

namespace Bindery.Builtin.Cpp

------------------------------------------------------------
-- Types in Headers
------------------------------------------------------------

/- Whether one of some definitions defines a type in a namespace. -/
def Defines
    (definitions : List Definition)
    (space name : String) : Prop :=
  ∃ d ∈ definitions, d.space = space ∧ d.name = name

/- Whether a block of a namespace declares a type. -/
def Declares
    (blocks : List ForwardBlock)
    (space name : String) : Prop :=
  ∃ block ∈ blocks, block.space = space ∧ name ∈ block.names

/- Whether the same types are defined and declared. -/
def Agree
    (definitions : List Definition)
    (blocks : List ForwardBlock) : Prop :=
  ∀ space name,
    Defines definitions space name ↔ Declares blocks space name

section Types

variable {schema : Schema} {definitions : List Definition}
variable {space name : String}

theorem cut_of_definitionOf
    {entry : String × Json}
    {d : Definition}
    (h : definitionOf entry = .ok d) :
    d.space = namespaceOf entry.1 ∧ d.name = localName entry.1 := by
  rw [definitionOf] at h
  cases hBody : bodyText (Form.ofBody entry.2) with
  | error e => simp [hBody, Except.map] at h
  | ok body =>
      obtain rfl : Definition.mk _ _ body = d := by
        simpa [hBody, Except.map] using h
      exact ⟨rfl, rfl⟩

/- A type is defined where its qualified name is cut. -/
theorem defines_iff
    (h : definitionsOf schema = .ok definitions) :
    Defines definitions space name ↔
      ∃ d ∈ schema.decls, namespaceOf d.qualifiedName = space ∧
        localName d.qualifiedName = name := by
  have hMade : definitions.map (fun d => (d.space, d.name)) =
      (Keyed.keys (RenderContext.ofSchema schema).declsByName).map
        fun key => (namespaceOf key, localName key) := by
    rw [Keyed.keys, List.map_map]
    exact Template.map_of_mapM
      (fun _ _ hMake => Prod.ext_iff.mpr (cut_of_definitionOf hMake)) h
  have hMem : Defines definitions space name ↔
      (space, name) ∈ definitions.map fun d => (d.space, d.name) := by
    simp [Defines]
  rw [hMem, hMade, List.mem_map]
  constructor
  · rintro ⟨key, hKey, hCut⟩
    rcases RenderContext.mem_keys_declsByName_iff.mp hKey with
      ⟨d, hd, rfl⟩
    exact ⟨d, hd, Prod.ext_iff.mp hCut⟩
  · rintro ⟨d, hd, hCut⟩
    exact ⟨d.qualifiedName,
      RenderContext.mem_keys_declsByName_iff.mpr ⟨d, hd, rfl⟩,
      Prod.ext_iff.mpr hCut⟩

/-
  A type is declared in the namespace around it, if there is a
  block of that namespace.
-/
theorem declares_iff :
    Declares (forwardBlocks schema) space name ↔
      (∃ d ∈ schema.decls, namespaceOf d.qualifiedName = space) ∧
        ∃ d ∈ schema.decls, enclosingNamespace d.name = space ∧
          d.name.getLastD "" = name := by
  rw [← RenderContext.mem_declNamespaces_iff]
  simp [Declares, forwardBlocks, forwardBlock, namesIn, and_assoc]

/- Plain names are defined where they are declared. -/
theorem agree_of_endsPlainly
    (h : definitionsOf schema = .ok definitions)
    (hPlain : ∀ d ∈ schema.decls, EndsPlainly d.name) :
    Agree definitions (forwardBlocks schema) := by
  intro space name
  have hCut : ∀ d ∈ schema.decls,
      namespaceOf d.qualifiedName = enclosingNamespace d.name ∧
        localName d.qualifiedName = d.name.getLastD "" := fun d hd =>
    cut_qualifiedName_iff.mpr (hPlain d hd)
  rw [defines_iff h, declares_iff]
  constructor
  · rintro ⟨d, hd, hSpace, hName⟩
    rcases hCut d hd with ⟨hEnclosing, hLast⟩
    exact ⟨⟨d, hd, hSpace⟩, d, hd, hEnclosing.symm.trans hSpace,
      hLast.symm.trans hName⟩
  · rintro ⟨-, d, hd, hSpace, hName⟩
    rcases hCut d hd with ⟨hEnclosing, hLast⟩
    exact ⟨d, hd, hEnclosing.trans hSpace, hLast.trans hName⟩

/- On its own, no other name is defined where it is declared. -/
theorem agree_singleton_iff
    {d : Decl}
    (h : definitionsOf schema = .ok definitions)
    (hSchema : schema.decls = [d]) :
    Agree definitions (forwardBlocks schema) ↔ EndsPlainly d.name := by
  constructor
  · intro hAgree
    have hDefined : Defines definitions
        (namespaceOf d.qualifiedName) (localName d.qualifiedName) :=
      (defines_iff h).mpr ⟨d, by simp [hSchema], rfl, rfl⟩
    rcases declares_iff.mp ((hAgree _ _).mp hDefined) with
      ⟨-, other, hOther, hSpace, hName⟩
    obtain rfl : other = d := by simpa [hSchema] using hOther
    exact cut_qualifiedName_iff.mp ⟨hSpace.symm, hName.symm⟩
  · intro hPlain
    exact agree_of_endsPlainly h (by simpa [hSchema] using hPlain)

end Types

------------------------------------------------------------
-- Generated Headers
------------------------------------------------------------

/-
  Both headers are generated.  One defines the types that result
  from cutting the qualified names of declarations, the other one
  declares those in the namespaces around last segments.  They
  agree if all last segments are plain, and for a declaration on
  its own only then.
-/
theorem generate_headers
    {fs : FileSystem}
    {schema : Schema}
    {generation : Generation}
    (h : (target.generate fs schema).outcome = .ok generation) :
    ∃ definitions, definitionsOf schema = .ok definitions ∧
      generation.artifacts.get? "koinos/types.hpp" =
        some (typesText definitions) ∧
      generation.artifacts.get? "koinos/types_fwd.hpp" =
        some (forwardText (forwardBlocks schema)) ∧
      (∀ space name, Defines definitions space name ↔
        ∃ d ∈ schema.decls, namespaceOf d.qualifiedName = space ∧
          localName d.qualifiedName = name) ∧
      (∀ space name, Declares (forwardBlocks schema) space name ↔
        (∃ d ∈ schema.decls, namespaceOf d.qualifiedName = space) ∧
          ∃ d ∈ schema.decls, enclosingNamespace d.name = space ∧
            d.name.getLastD "" = name) ∧
      ((∀ d ∈ schema.decls, EndsPlainly d.name) →
        Agree definitions (forwardBlocks schema)) ∧
      ∀ d, schema.decls = [d] →
        (Agree definitions (forwardBlocks schema) ↔
          EndsPlainly d.name) := by
  rw [outcome_generate] at h
  cases hDefinitions : definitionsOf schema with
  | error cause => simp [hDefinitions] at h
  | ok definitions =>
      obtain rfl : Generation.mk _ "koinos/types.hpp" = generation := by
        simpa [hDefinitions] using h
      exact ⟨definitions, rfl, rfl, rfl,
        fun _ _ => defines_iff hDefinitions, fun _ _ => declares_iff,
        agree_of_endsPlainly hDefinitions,
        fun _ => agree_singleton_iff hDefinitions⟩

/-
  A separator within a segment: the block of the namespace that
  it is cut at declares nothing.
-/
theorem generate_headers_separator :
    ∃ generation definitions,
      (target.generate Builtin.fileSystem
          ⟨[⟨["koinos::Block"], .object []⟩], []⟩).outcome =
        .ok generation ∧
      definitionsOf ⟨[⟨["koinos::Block"], .object []⟩], []⟩ =
        .ok definitions ∧
      Defines definitions "koinos" "Block" ∧
      ¬Declares
        (forwardBlocks ⟨[⟨["koinos::Block"], .object []⟩], []⟩)
        "koinos" "Block" ∧
      generation.artifacts.get? "koinos/types_fwd.hpp" =
        some ("#pragma once\n" ++
          "// Code generated by declgen. DO NOT EDIT.\n\n" ++
          "#include \"../rt/basetypes.hpp\"\n\n" ++
          "namespace koinos \x7b\n\x7d // namespace koinos\n") := by
  have hOutcome := outcome_generate Builtin.fileSystem
    ⟨[⟨["koinos::Block"], .object []⟩], []⟩
  have hDefinitions :
      definitionsOf ⟨[⟨["koinos::Block"], .object []⟩], []⟩ =
        .ok [⟨"koinos", "Block",
          " \x7b\n   koinos::opaque data;\n\x7d;"⟩] := rfl
  simp only [hDefinitions] at hOutcome
  rcases generate_headers hOutcome with
    ⟨definitions, hMade, -, hForward, hDefines, hDeclares, -, -⟩
  refine ⟨_, definitions, hOutcome, hMade, ?_, ?_, ?_⟩
  · refine (hDefines _ _).mpr ⟨_, List.mem_singleton_self _, ?_⟩
    decide +kernel
  · rintro hDeclared
    rcases (hDeclares _ _).mp hDeclared with ⟨-, d, hd, hSpace, -⟩
    rw [List.mem_singleton.mp hd] at hSpace
    exact absurd hSpace (by decide)
  · rw [hForward]
    exact congrArg some (by decide +kernel)

end Bindery.Builtin.Cpp
