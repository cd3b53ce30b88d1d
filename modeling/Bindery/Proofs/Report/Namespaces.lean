import Bindery.Proofs.RenderContext
import Bindery.Proofs.Text.ByteOrder
import Bindery.Report.Check

/-
  This file says that the namespaces in the report on a schema
  are those that templates see, and that they depend only on
  which declarations there are.

  Key theorems include:
    * `ofFile_namespaces`
-/

namespace Bindery.CheckReport

/-
  The report lists the namespaces that templates see.  They are
  the namespaces of the declared names, each once, in the order
  of their bytes.  A schema with the same declarations, in
  whatever order and however often, has the same ones.
-/
theorem ofFile_namespaces
    {ε : Type}
    (file : SchemaFile) :
    ∃ c, (RenderContext.build file.schema :
          Traced ε RenderContext).outcome = .ok c ∧
      (ofFile file).namespaces = c.declNamespaces ∧
      c.declNamespaces.Pairwise
        (fun a b => Text.bytes a < Text.bytes b) ∧
      (∀ space, space ∈ c.declNamespaces ↔
        ∃ d ∈ file.schema.decls,
          namespaceOf d.qualifiedName = space) ∧
      ∀ other : SchemaFile,
        (∀ d, d ∈ other.schema.decls ↔ d ∈ file.schema.decls) →
        (ofFile other).namespaces = c.declNamespaces ∧
        ∃ c', (RenderContext.build other.schema :
            Traced ε RenderContext).outcome = .ok c' ∧
          c'.declNamespaces = c.declNamespaces := by
  have hReport : ∀ file : SchemaFile, (ofFile file).namespaces =
      (RenderContext.ofSchema file.schema).declNamespaces :=
    fun file => (RenderContext.declNamespaces_eq file.schema).symm
  refine ⟨RenderContext.ofSchema file.schema, rfl, hReport file, ?_,
    fun _ => RenderContext.mem_declNamespaces_iff, fun other hSame => ?_⟩
  · rw [RenderContext.declNamespaces_eq]
    exact (pairwise_namespaces _).imp Text.bytes_lt_iff.mpr
  · have hContext := RenderContext.declNamespaces_congr hSame
    exact ⟨(hReport other).trans hContext,
      RenderContext.ofSchema other.schema, rfl, hContext⟩

/- Two declarations, turned around and one of them repeated. -/
theorem ofFile_namespaces_repeated :
    let first : Decl := ⟨["b", "c", "T"], .null⟩
    let second : Decl := ⟨["Top"], .null⟩
    (∀ d, d ∈ [second, first, second] ↔ d ∈ [first, second]) ∧
      (ofFile ⟨"s", "", ⟨[first, second], []⟩⟩).namespaces =
        ["", "b::c"] ∧
      (ofFile ⟨"s", "", ⟨[second, first, second], []⟩⟩).namespaces =
        ["", "b::c"] := by
  intro first second
  have hSame : ∀ d, d ∈ [second, first, second] ↔
      d ∈ [first, second] := by
    intro d
    simp [or_comm]
  rcases ofFile_namespaces (ε := Empty)
    ⟨"s", "", ⟨[first, second], []⟩⟩ with
      ⟨c, -, hReport, -, -, hOther⟩
  have hFirst : (ofFile ⟨"s", "", ⟨[first, second], []⟩⟩).namespaces =
      ["", "b::c"] := by
    decide
  refine ⟨hSame, hFirst, ?_⟩
  rw [(hOther ⟨"s", "", ⟨[second, first, second], []⟩⟩ hSame).1,
    ← hReport, hFirst]

end Bindery.CheckReport
