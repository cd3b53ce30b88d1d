import Bindery.Proofs.QualifiedName
import Bindery.Proofs.Report.Duplicates

/-
  This file says when the segments of a name can be read off its
  qualified name: no segment holds the separator, and none but
  the first starts with a colon.  Declarations with such names
  never get into each other's way.

  Key definitions include:
    * `IsLegible`
    * `Schema.segmentLists`

  Key theorems include:
    * `IsLegible.endsPlainly`
    * `IsLegible.eq_of_qualifiedName`
    * `IsLegible.count_names`
    * `keys_declsByName_of_isLegible`
    * `mem_duplicateNames_of_isLegible`
    * `qualifiedName_unambiguous`
-/

namespace Bindery

------------------------------------------------------------
-- Legible Names
------------------------------------------------------------

/-
  Segments that can be told apart once they are joined.  They may
  be empty, and they may end with a colon.
-/
structure IsLegible (segments : List String) : Prop where
  nonempty : segments ≠ []
  separator : ∀ s ∈ segments, ¬ separator <:+: s.toList
  colon : ∀ s ∈ segments.tail, s.toList.head? ≠ some ':'

instance (segments : List String) : Decidable (IsLegible segments) :=
  decidable_of_iff
    (segments ≠ [] ∧ (∀ s ∈ segments, ¬ separator <:+: s.toList) ∧
      ∀ s ∈ segments.tail, s.toList.head? ≠ some ':')
    ⟨fun h => ⟨h.1, h.2.1, h.2.2⟩,
      fun h => ⟨h.nonempty, h.separator, h.colon⟩⟩

namespace IsLegible

variable {segments others init : List String} {last : String}

/- The last segment of a legible name can be cut off, ... -/
theorem endsPlainly (h : IsLegible segments) : EndsPlainly segments where
  separator last hLast := by
    rw [← Bool.not_eq_true, Text.occursIn_iff_isInfix]
    exact h.separator last (List.mem_of_getLast? hLast)
  colon hTwo last hLast := by
    apply h.colon last
    have hTail : segments.tail.getLast? = some last := by
      rw [List.getLast?_tail, if_neg (by omega), hLast]
    exact List.mem_of_getLast? hTail

/- ... and what is left then is legible. -/
theorem of_append
    (h : IsLegible (init ++ [last]))
    (hInit : init ≠ []) :
    IsLegible init where
  nonempty := hInit
  separator s hs := h.separator s (List.mem_append_left _ hs)
  colon s hs := by
    apply h.colon s
    rw [List.tail_append_of_ne_nil hInit]
    exact List.mem_append_left _ hs

theorem isBare_iff (h : IsLegible segments) :
    IsBare segments ↔ segments.length ≤ 1 :=
  ⟨And.left, fun hOne => ⟨hOne, h.separator⟩⟩

/-
  Legible names are the same if their qualified names are.
-/
theorem eq_of_qualifiedName
    (h : IsLegible segments)
    (hOthers : IsLegible others)
    (hSame : qualifiedName segments = qualifiedName others) :
    segments = others := by
  -- The induction takes segments off the end of both names: where
  -- the last one is cut off, the rest has to be cut in the same way.
  induction segments using List.reverseRecOn generalizing others with
  | nil => exact absurd rfl h.nonempty
  | append_singleton init last ih =>
      rcases List.eq_nil_or_concat others with rfl | ⟨front, final, hSnoc⟩
      · exact absurd rfl hOthers.nonempty
      rw [List.concat_eq_append] at hSnoc
      subst hSnoc
      have hCut := cut_qualifiedName_iff.mpr h.endsPlainly
      have hOtherCut := cut_qualifiedName_iff.mpr hOthers.endsPlainly
      rw [hSame] at hCut
      have hInit : qualifiedName init = qualifiedName front := by
        simpa [enclosingNamespace] using hCut.1.symm.trans hOtherCut.1
      have hLast : last = final := by
        simpa using hCut.2.symm.trans hOtherCut.2
      have hAlone : init = [] ↔ front = [] := by
        have hBare : IsBare (init ++ [last]) ↔
            IsBare (front ++ [final]) := by
          rw [← not_iff_not, ← separator_infix_qualifiedName_iff,
            ← separator_infix_qualifiedName_iff, hSame]
        simpa [h.isBare_iff, hOthers.isBare_iff] using hBare
      by_cases hNil : init = []
      · rw [hNil, hAlone.mp hNil, hLast]
      · have hFront := mt hAlone.mpr hNil
        rw [ih (h.of_append hNil) (hOthers.of_append hFront) hInit, hLast]

end IsLegible

------------------------------------------------------------
-- Declarations with Legible Names
------------------------------------------------------------

section Declarations

variable {schema : Schema}

/- The segments of the declared names, repeats included. -/
def Schema.segmentLists (schema : Schema) : List (List String) :=
  schema.decls.map Decl.name

theorem Schema.names_eq_map (schema : Schema) :
    schema.names = schema.segmentLists.map qualifiedName := by
  rw [Schema.names, Schema.segmentLists, List.map_map]
  rfl

/- A legible name is declared as often as its qualified name. -/
theorem IsLegible.count_names
    {segments : List String}
    (h : IsLegible segments)
    (hSchema : ∀ d ∈ schema.decls, IsLegible d.name) :
    schema.names.count (qualifiedName segments) =
      schema.segmentLists.count segments := by
  rw [schema.names_eq_map]
  refine count_map fun other hOther hSame => ?_
  rcases List.mem_map.mp hOther with ⟨d, hd, rfl⟩
  exact (hSchema d hd).eq_of_qualifiedName h hSame

/- Legible names are under their qualified names, each once. -/
theorem keys_declsByName_of_isLegible
    (hSchema : ∀ d ∈ schema.decls, IsLegible d.name) :
    Keyed.keys (RenderContext.ofSchema schema).declsByName =
      schema.segmentLists.eraseDups.map qualifiedName := by
  rw [RenderContext.keys_declsByName, schema.names_eq_map]
  refine eraseDups_map fun segments hSegments others hOthers hSame => ?_
  rcases List.mem_map.mp hSegments with ⟨d, hd, rfl⟩
  rcases List.mem_map.mp hOthers with ⟨other, hOther, rfl⟩
  exact (hSchema d hd).eq_of_qualifiedName (hSchema other hOther) hSame

/- What is listed as declared more than once is so, segment by segment. -/
theorem mem_duplicateNames_of_isLegible
    (hSchema : ∀ d ∈ schema.decls, IsLegible d.name)
    {name : String} :
    name ∈ schema.duplicateNames ↔
      ∃ segments, qualifiedName segments = name ∧
        2 ≤ schema.segmentLists.count segments := by
  have hRepeats : Repeats schema.names
      (warnedNames (declareAll [] schema.decls).2)
      schema.duplicateNames :=
    repeats_declareAll schema.decls
  have hDeclared : ∀ {segments}, segments ∈ schema.segmentLists →
      schema.names.count (qualifiedName segments) =
        schema.segmentLists.count segments := by
    intro segments hMem
    rcases List.mem_map.mp hMem with ⟨d, hd, rfl⟩
    exact (hSchema d hd).count_names hSchema
  rw [hRepeats.mem_listed_iff]
  constructor
  · intro hTwice
    have hName : name ∈ schema.names :=
      List.count_pos_iff.mp (by omega)
    rw [schema.names_eq_map] at hName
    rcases List.mem_map.mp hName with ⟨segments, hSegments, rfl⟩
    exact ⟨segments, rfl, hDeclared hSegments ▸ hTwice⟩
  · rintro ⟨segments, rfl, hTwice⟩
    rwa [hDeclared (List.count_pos_iff.mp (by omega))]

/-
  Legible names can be told apart by their qualified names.  So
  if all names of a schema are legible, templates see one entry
  for each list of segments that is declared, and only
  declarations with the same segments are reported as
  duplicates, in the warnings and in the list of their names.
-/
theorem qualifiedName_unambiguous
    {ε : Type}
    (schema : Schema) :
    (∀ segments others, IsLegible segments → IsLegible others →
      (qualifiedName segments = qualifiedName others ↔
        segments = others)) ∧
      ((∀ d ∈ schema.decls, IsLegible d.name) →
        ∃ (c : RenderContext) (warned : List String),
          (RenderContext.build schema :
              Traced ε RenderContext).outcome = .ok c ∧
          (RenderContext.build schema :
              Traced ε RenderContext).events.filter (·.level = .warn) =
            warned.map replacedEvent ∧
          Keyed.keys c.declsByName =
            schema.segmentLists.eraseDups.map qualifiedName ∧
          (∀ segments ∈ schema.segmentLists,
            (Keyed.keys c.declsByName).count
              (qualifiedName segments) = 1) ∧
          (∀ segments, IsLegible segments →
            warned.count (qualifiedName segments) =
              schema.segmentLists.count segments - 1) ∧
          schema.duplicateNames = warned.eraseDups ∧
          (∀ name, name ∈ schema.duplicateNames ↔
            ∃ segments, qualifiedName segments = name ∧
              2 ≤ schema.segmentLists.count segments)) := by
  refine ⟨fun segments others h hOthers =>
    ⟨h.eq_of_qualifiedName hOthers, congrArg qualifiedName⟩,
    fun hSchema => ?_⟩
  have hRepeats := repeats_declareAll schema.decls
  have hKeys := keys_declsByName_of_isLegible hSchema
  refine ⟨RenderContext.ofSchema schema, _, rfl,
    filter_declareAll [] schema.decls, hKeys, ?_, ?_,
    hRepeats.listed_eq, fun _ => mem_duplicateNames_of_isLegible hSchema⟩
  · intro segments hSegments
    refine List.count_eq_one_of_mem ?_ ?_
    · rw [RenderContext.keys_declsByName]
      exact nodup_eraseDups _
    · rw [hKeys]
      exact List.mem_map_of_mem (List.mem_eraseDups.mpr hSegments)
  · intro segments h
    rw [hRepeats.count_warned, ← h.count_names hSchema]
    rfl

/- Empty segments, colons at their ends, and one declared again. -/
def colonSchema : Schema :=
  ⟨[⟨["a:", "b"], .null⟩, ⟨["", "a:", "b"], .null⟩,
    ⟨[":", ""], .null⟩, ⟨["a:", "b"], .bool true⟩], []⟩

/- Three entries, and one duplicate. -/
theorem qualifiedName_unambiguous_colons :
    (∀ d ∈ colonSchema.decls, IsLegible d.name) ∧
      ∃ (c : RenderContext) (warned : List String),
        (RenderContext.build colonSchema :
            Traced Unit RenderContext).outcome = .ok c ∧
        Keyed.keys c.declsByName = ["a:::b", "::a:::b", ":::"] ∧
        warned.count "a:::b" = 1 ∧
        colonSchema.duplicateNames = warned.eraseDups ∧
        "a:::b" ∈ colonSchema.duplicateNames ∧
        ":::" ∉ colonSchema.duplicateNames := by
  have hLegible : ∀ d ∈ colonSchema.decls, IsLegible d.name := by
    decide
  rcases @qualifiedName_unambiguous Unit colonSchema with
    ⟨hTold, hEntries⟩
  rcases hEntries hLegible with
    ⟨c, warned, hOutcome, -, hKeys, -, hWarned, hListed, hNames⟩
  refine ⟨hLegible, c, warned, hOutcome, ?_, ?_, hListed, ?_, ?_⟩
  · rw [hKeys]
    decide
  · exact hWarned ["a:", "b"] (by decide)
  · exact (hNames "a:::b").mpr ⟨["a:", "b"], by decide, by decide⟩
  · intro hMem
    rcases (hNames ":::").mp hMem with ⟨segments, hSame, hTwice⟩
    have hDeclared : segments ∈ colonSchema.segmentLists :=
      List.count_pos_iff.mp (by omega)
    rcases List.mem_map.mp hDeclared with ⟨d, hd, rfl⟩
    have hSegments := (hTold d.name [":", ""] (hLegible d hd)
      (by decide)).mp hSame
    rw [hSegments] at hTwice
    exact absurd hTwice (by decide)

/- A colon at the start of a later segment is taken for one before. -/
example :
    qualifiedName ["a", ":b"] = qualifiedName ["a:", "b"] ∧
      ¬ IsLegible ["a", ":b"] ∧ IsLegible ["a:", "b"] := by
  decide

end Declarations

end Bindery
