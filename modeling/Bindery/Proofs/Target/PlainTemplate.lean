import Bindery.Proofs.Files.Limits
import Bindery.Proofs.Files.Ordinary
import Bindery.Proofs.Target.Composition
import Bindery.Proofs.Target.Declarations

/-
  This file is about templates in which there is nothing to be
  evaluated: their text is rendered as it stands, unless a part
  of the template's name starts with a dot.  Such a template is
  not found, even if it is there.

  Key definitions include:
    * `Template.marks`
    * `Template.IsPlain`
    * `HasHiddenPart`

  Key theorems include:
    * `Template.beforeMark_of_isPlain`
    * `Template.ofTemplate_of_isPlain`
    * `Path.join_eq_joinAll`
    * `templatePath?_of_isOrdinary`
    * `TemplateSet.renderOne_of_templatePath?_eq_none`
    * `TemplateSet.render_plain`
-/

namespace Bindery

------------------------------------------------------------
-- Texts without Marks
------------------------------------------------------------

namespace Template

/- What begins an output tag, a block or a comment. -/
def marks : List (List Char) :=
  [['{', '{'], ['{', '%'], ['{', '#']]

/- Whether no mark stands anywhere in a text. -/
def IsPlain (text : List Char) : Prop :=
  ∀ mark ∈ marks, ¬ mark <:+: text

instance (text : List Char) : Decidable (IsPlain text) :=
  inferInstanceAs (Decidable (∀ _ ∈ _, _))

section Plain

variable {text : List Char}

/- Where a mark is read, one of them begins. -/
theorem exists_prefix_of_mark?
    (h : (mark? text).isSome) :
    ∃ mark ∈ marks, mark <+: text := by
  unfold mark? at h
  split at h
  · exact ⟨['{', '{'], by simp [marks], by simp⟩
  · exact ⟨['{', '%'], by simp [marks], by simp⟩
  · exact ⟨['{', '#'], by simp [marks], by simp⟩
  · simp at h

theorem IsPlain.mark?_eq_none (h : IsPlain text) :
    mark? text = none := by
  rw [← Option.not_isSome_iff_eq_none]
  intro hSome
  rcases exists_prefix_of_mark? hSome with ⟨mark, hMark, hPrefix⟩
  exact h mark hMark hPrefix.isInfix

/- All of a plain text stands before the first mark. -/
theorem beforeMark_of_isPlain (h : IsPlain text) :
    beforeMark text = (text, []) := by
  induction text with
  | nil => rfl
  | cons c rest ih =>
      have hRest : IsPlain rest := fun mark hMark hInfix =>
        h mark hMark (hInfix.trans (List.suffix_cons c rest).isInfix)
      rw [beforeMark, h.mark?_eq_none, ih hRest]
      rfl

/- A plain text has no token but itself. -/
theorem tokens_of_isPlain
    {text : String}
    (h : IsPlain text.toList) :
    Token.ofTemplate text =
      if text = "" then [] else [.text text] := by
  have hTokens : Token.ofTemplate text = textTokens text.toList := by
    rw [Token.ofTemplate, scan, beforeMark_of_isPlain h]
    rfl
  rw [hTokens, textTokens, String.ofList_toList]
  simp

/- A plain text is the only statement of its template. -/
theorem ofTemplate_of_isPlain
    {text : String}
    (h : IsPlain text.toList) :
    Stmt.ofTemplate text =
      .ok (if text = "" then [] else [.text text]) := by
  rw [Stmt.ofTemplate, tokens_of_isPlain h]
  split <;> rfl

/- A plain text is its own output. -/
theorem execAll_of_isPlain
    (setting : Setting)
    (text : String)
    (scope : Scope) :
    execAll setting (if text = "" then [] else [.text text]) scope =
      .ok (text, scope) := by
  split
  · rename_i hEmpty
    rw [hEmpty, execAll]
  · rw [execAll_singleton, execStmt_text]

end Plain

end Template

------------------------------------------------------------
-- Where Templates Lie
------------------------------------------------------------

section Places

variable {directory name path : String}

/- An ordinary path is joined as its names are, one by one. -/
theorem Path.join_eq_joinAll
    (base : String)
    (h : Path.IsOrdinary path) :
    Path.join base path = Path.joinAll base (Path.names path) := by
  induction hNames : Path.names path generalizing base path with
  | nil => exact absurd hNames h.names_ne_nil
  | cons name others ih =>
      rcases h.isName_or_append with
        hName | ⟨first, rest, hPath, hFirst, hRest, hSplit⟩
      · rw [hName.names] at hNames
        cases hNames
        rfl
      · rw [hSplit] at hNames
        cases hNames
        rw [hPath, Path.join_name_append base hFirst hRest.isAbsolute,
          ih _ hRest rfl]
        rfl

/- Whether a part of a path between slashes starts with a dot. -/
def HasHiddenPart (path : String) : Prop :=
  ∃ piece ∈ Text.splitAt '/' path.toList, piece.head? = some '.'

instance (path : String) : Decidable (HasHiddenPart path) :=
  inferInstanceAs (Decidable (∃ _ ∈ _, _))

/-
  A template of an ordinary name lies where the name leads from
  the directory, unless a part of the name is hidden.
-/
theorem templatePath?_of_isOrdinary
    (h : Path.IsOrdinary name)
    (hSlash : '\\' ∉ name.toList) :
    templatePath? directory name =
      if HasHiddenPart name then none
      else some (Path.join directory name) := by
  have hParts : ∀ piece ∈ Text.splitAt '/' name.toList,
      '\\' ∉ piece := fun piece hPiece hMem =>
    hSlash (Text.mem_of_mem_splitAt hPiece hMem (by decide))
  have hRefused : (Text.splitAt '/' name.toList).any isRefusedSegment =
      true ↔ HasHiddenPart name := by
    rw [List.any_eq_true]
    refine exists_congr fun piece => and_congr_right fun hPiece => ?_
    simp [isRefusedSegment, hParts piece hPiece]
  rw [Path.join_eq_joinAll directory h, h.names, Path.joinAll,
    List.foldl_map, templatePath?]
  by_cases hHidden : HasHiddenPart name
  · rw [if_pos hHidden, if_pos (hRefused.mpr hHidden)]
  · rw [if_neg hHidden, if_neg (mt hRefused.mp hHidden)]

end Places

------------------------------------------------------------
-- Rendering
------------------------------------------------------------

section Rendering

variable {fs : FileSystem} {directory name text : String}

/- A template without a place is missing, whatever is there. -/
theorem TemplateSet.renderOne_of_templatePath?_eq_none
    {set : TemplateSet}
    (h : templatePath? set.directory name = none)
    (globals : Template.Globals) :
    set.renderOne fs globals name =
      .error (.templateNotFound name set.directory) := by
  have hLoad : loadTemplate fs set.directory name =
      .error .notFound := by
    rw [loadTemplate, templateText, h]
    rfl
  rw [renderOne, Template.runTemplate, hLoad]
  rfl

/-
  A file without marks is rendered as it stands to the path of
  its template, exactly if no part of the template's name starts
  with a dot.  Otherwise the template is said to be missing.
-/
theorem TemplateSet.render_plain
    (hName : Path.IsOrdinary name)
    (hSlash : '\\' ∉ name.toList)
    (hFile : fs.stat (Path.join directory name) =
      .ok (.file text.toUTF8))
    (hText : Template.IsPlain text.toList)
    (c : RenderContext) :
    (⟨directory, [name]⟩ : TemplateSet).render fs c =
      if HasHiddenPart name then
        ⟨[], .error (.templateNotFound name directory)⟩
      else
        ⟨[renderedEvent name text],
          .ok (ArtifactSet.ofList [(artifactPath name, text)])⟩ := by
  have hPath := @templatePath?_of_isOrdinary directory name hName hSlash
  by_cases hHidden : HasHiddenPart name
  · rw [if_pos hHidden] at hPath ⊢
    have hOne := @renderOne_of_templatePath?_eq_none fs name
      ⟨directory, [name]⟩ hPath c.globals
    rw [render, renderFrom, hOne]
    rfl
  · rw [if_neg hHidden] at hPath ⊢
    have hLoad := loadTemplate_of_stat hPath hFile
    rw [Template.ofTemplate_of_isPlain hText] at hLoad
    have hOne : (⟨directory, [name]⟩ : TemplateSet).renderOne fs
        c.globals name = .ok text :=
      @renderOne_of_execAll _ ⟨directory, [name]⟩ _ _ _ (.ok text) hLoad
        fun _ => Template.execAll_of_isPlain _ _ _
    rw [render, renderFrom, hOne]
    rfl

/- A template below a directory, and one with a hidden name. -/
def dottedTemplates : FileSystem :=
  ⟨.directory [("t", .directory
    [(".gitignore", .file "build\n".toUTF8),
      ("docs", .directory
        [("notes.md.j2", .file "one\n".toUTF8)])])], []⟩

/- Both templates are there and have no marks; one is rendered. -/
theorem TemplateSet.render_plain_dotted :
    (Path.IsOrdinary "docs/notes.md.j2" ∧
      '\\' ∉ "docs/notes.md.j2".toList ∧
      dottedTemplates.stat (Path.join "t" "docs/notes.md.j2") =
        .ok (.file "one\n".toUTF8) ∧
      Template.IsPlain "one\n".toList ∧
      ((⟨"t", ["docs/notes.md.j2"]⟩ : TemplateSet).render dottedTemplates
        (RenderContext.ofSchema .empty)).outcome =
          .ok (ArtifactSet.ofList [("docs/notes.md", "one\n")])) ∧
    (Path.IsOrdinary ".gitignore" ∧
      '\\' ∉ ".gitignore".toList ∧
      dottedTemplates.stat (Path.join "t" ".gitignore") =
        .ok (.file "build\n".toUTF8) ∧
      Template.IsPlain "build\n".toList ∧
      ((⟨"t", [".gitignore"]⟩ : TemplateSet).render dottedTemplates
        (RenderContext.ofSchema .empty)).outcome =
          .error (.templateNotFound ".gitignore" "t")) := by
  have hNotes : dottedTemplates.stat (Path.join "t" "docs/notes.md.j2") =
      .ok (.file "one\n".toUTF8) := rfl
  have hIgnore : dottedTemplates.stat (Path.join "t" ".gitignore") =
      .ok (.file "build\n".toUTF8) := rfl
  have hRendered := @TemplateSet.render_plain dottedTemplates "t"
    "docs/notes.md.j2" "one\n" (by decide) (by decide) hNotes (by decide)
    (RenderContext.ofSchema .empty)
  have hMissing := @TemplateSet.render_plain dottedTemplates "t"
    ".gitignore" "build\n" (by decide) (by decide) hIgnore (by decide)
    (RenderContext.ofSchema .empty)
  have hPath : artifactPath "docs/notes.md.j2" = "docs/notes.md" := by
    decide +kernel
  rw [if_neg (by decide), hPath] at hRendered
  rw [if_pos (by decide)] at hMissing
  refine ⟨⟨by decide, by decide, hNotes, by decide, ?_⟩,
    ⟨by decide, by decide, hIgnore, by decide, ?_⟩⟩
  · rw [hRendered]
  · rw [hMissing]

end Rendering

end Bindery
