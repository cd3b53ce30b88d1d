import Bindery.Proofs.Keyed
import Bindery.Proofs.Sorting
import Bindery.RenderContext

/-
  This file says which names and namespaces are in what
  templates see of a schema.

  Key theorems include:
    * `keys_declareAll`
    * `mem_namespaces_iff`
    * `pairwise_namespaces`
    * `namespaces_congr`
    * `RenderContext.declNamespaces_eq`
    * `RenderContext.declNamespaces_congr`
    * `RenderContext.mem_declNamespaces_iff`
-/

namespace Bindery

/- Declaring puts bodies under names, and nothing else. -/
theorem fst_declareAll
    (known : List (String × Json))
    (decls : List Decl) :
    (declareAll known decls).1 =
      Keyed.putAll (decls.map fun d => (d.qualifiedName, d.body))
        known := by
  induction decls generalizing known with
  | nil => rfl
  | cons d rest ih => exact ih (Keyed.put d.qualifiedName d.body known)

/- The bodies are under the names, each name where it came first. -/
theorem keys_declareAll (decls : List Decl) :
    Keyed.keys (declareAll [] decls).1 =
      (decls.map Decl.qualifiedName).eraseDups := by
  rw [fst_declareAll, Keyed.keys_putAll]
  simp [Keyed.keys, Function.comp_def]

/- The namespaces of names are those of one of them. -/
theorem mem_namespaces_iff
    {names : List String}
    {space : String} :
    space ∈ namespaces names ↔
      ∃ name ∈ names, namespaceOf name = space := by
  rw [namespaces, (ascending_perm _).mem_iff, List.mem_eraseDups,
    List.mem_map]

/- Namespaces are listed in ascending order, each once. -/
theorem pairwise_namespaces (names : List String) :
    (namespaces names).Pairwise (· < ·) :=
  pairwise_ascending_of_nodup (nodup_eraseDups _)

/- Names of the same namespaces give the same list of namespaces. -/
theorem namespaces_congr
    {names others : List String}
    (h : ∀ space, (∃ name ∈ names, namespaceOf name = space) ↔
      ∃ name ∈ others, namespaceOf name = space) :
    namespaces names = namespaces others := by
  refine (pairwise_namespaces names).eq_of_mem_iff
    (pairwise_namespaces others) fun space => ?_
  rw [mem_namespaces_iff, mem_namespaces_iff, h]

namespace RenderContext

variable {schema : Schema}

theorem keys_declsByName (schema : Schema) :
    Keyed.keys (ofSchema schema).declsByName =
      schema.names.eraseDups :=
  keys_declareAll schema.decls

/- The bodies that templates see have the names of declarations. -/
theorem mem_keys_declsByName_iff {name : String} :
    name ∈ Keyed.keys (ofSchema schema).declsByName ↔
      ∃ d ∈ schema.decls, d.qualifiedName = name := by
  rw [keys_declsByName, List.mem_eraseDups, Schema.names, List.mem_map]

/-
  The namespaces that templates see are those of all declared
  names; it does not matter that each name is there only once.
-/
theorem declNamespaces_eq (schema : Schema) :
    (ofSchema schema).declNamespaces = namespaces schema.names := by
  change namespaces (Keyed.keys (ofSchema schema).declsByName) = _
  rw [keys_declsByName]
  exact namespaces_congr (by simp)

/- The namespaces that templates see are those of declarations. -/
theorem mem_declNamespaces_iff {space : String} :
    space ∈ (ofSchema schema).declNamespaces ↔
      ∃ d ∈ schema.decls, namespaceOf d.qualifiedName = space := by
  rw [declNamespaces_eq, mem_namespaces_iff]
  simp [Schema.names]

/-
  Neither the order of declarations nor their number matters to
  the namespaces.
-/
theorem declNamespaces_congr
    {other : Schema}
    (h : ∀ d, d ∈ other.decls ↔ d ∈ schema.decls) :
    (ofSchema other).declNamespaces =
      (ofSchema schema).declNamespaces := by
  rw [declNamespaces_eq, declNamespaces_eq]
  refine namespaces_congr fun space => ?_
  simp only [Schema.names, List.mem_map, h]

end RenderContext

end Bindery
