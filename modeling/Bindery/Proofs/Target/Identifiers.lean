import Bindery.Proofs.Target.Declarations
import Bindery.QualifiedName
import Mathlib.Data.List.Forall2

/-
  This file is about qualified names in languages that have no
  names within names: a type gets one word for an identifier,
  with `_` for every separator.  Two names can get the same one.

  Key definitions include:
    * `Piece`
    * `pieces`
    * `identifierOf`
    * `Confusable`
    * `flatExpr`

  Key theorems include:
    * `replaceAll_separator`
    * `flatMap_spelling_pieces`
    * `identifierOf_eq_iff`
    * `identifierOf_of_not_infix`
    * `Confusable.eq_of_plain`
    * `evalExpr_flatExpr`
-/

namespace Bindery

------------------------------------------------------------
-- Pieces of Names
------------------------------------------------------------

/- What a name is made of: separators, and letters between them. -/
inductive Piece where
| separator
| letter (c : Char)
deriving DecidableEq

namespace Piece

/- A piece as it stands in a qualified name. -/
def spelling : Piece → List Char
| separator => Bindery.separator
| letter c => [c]

/- A piece as it stands in an identifier. -/
def glyph : Piece → Char
| separator => '_'
| letter c => c

/- A separator, or the letter that stands for it in identifiers. -/
def IsGap : Piece → Prop
| separator => True
| letter c => c = '_'

/- Pieces that are the same, or gaps. -/
def Alike (first second : Piece) : Prop :=
  first = second ∨ (first.IsGap ∧ second.IsGap)

instance : DecidablePred IsGap
| separator => isTrue trivial
| letter c => inferInstanceAs (Decidable (c = '_'))

instance (first second : Piece) : Decidable (first.Alike second) :=
  inferInstanceAs
    (Decidable (first = second ∨ (first.IsGap ∧ second.IsGap)))

theorem glyph_eq_iff {first second : Piece} :
    first.glyph = second.glyph ↔ first.Alike second := by
  cases first <;> cases second <;> grind [glyph, Alike, IsGap]

/- Pieces that are no `_` are alike only if they are the same. -/
theorem Alike.eq_of_ne
    {first second : Piece}
    (h : first.Alike second)
    (hFirst : first ≠ letter '_')
    (hSecond : second ≠ letter '_') :
    first = second := by
  cases first <;> cases second <;> grind [Alike, IsGap]

end Piece

/- The pieces of a name, cut from left to right. -/
def pieces : List Char → List Piece
| [] => []
| ':' :: ':' :: rest => .separator :: pieces rest
| c :: rest => .letter c :: pieces rest

section Pieces

variable {text : List Char}

/- The pieces are all that a name has. -/
theorem flatMap_spelling_pieces (text : List Char) :
    (pieces text).flatMap Piece.spelling = text := by
  fun_induction pieces text with
  | case1 => rfl
  | case2 rest ih => rw [List.flatMap_cons, ih]; rfl
  | case3 c rest _ ih => rw [List.flatMap_cons, ih]; rfl

/- A letter among the pieces of a name stands in the name. -/
theorem mem_of_letter_mem_pieces
    {c : Char}
    (h : .letter c ∈ pieces text) :
    c ∈ text := by
  rw [← flatMap_spelling_pieces text]
  exact List.mem_flatMap.mpr ⟨_, h, List.mem_singleton_self c⟩

/- What a piece of a name stands for is a part of the name. -/
theorem spelling_infix_of_mem_pieces
    {piece : Piece}
    (h : piece ∈ pieces text) :
    piece.spelling <:+: text := by
  rcases List.append_of_mem h with ⟨before, after, hSplit⟩
  rw [← flatMap_spelling_pieces text, hSplit, List.flatMap_append,
    List.flatMap_cons, ← List.append_assoc]
  exact List.infix_append _ _ _

/- To replace the separators is to take another letter for them. -/
theorem replaceAll_separator (text : List Char) :
    Text.replaceAll separator ['_'] text =
      (pieces text).map Piece.glyph := by
  unfold Text.replaceAll
  fun_induction pieces text with
  | case1 => rfl
  | case2 rest ih =>
      rw [List.map_cons, ← ih]
      rfl
  | case3 c rest hRest ih =>
      -- A letter is cut off only where no separator starts.
      have hStart : separator.isPrefixOf (c :: rest) = false := by
        cases rest with
        | nil => simp [separator, List.isPrefixOf]
        | cons next others =>
            by_contra hPrefix
            have hBoth : ':' = c ∧ ':' = next := by
              simpa [separator, List.isPrefixOf] using hPrefix
            exact hRest others hBoth.1.symm (by rw [← hBoth.2])
      rw [Text.replaceFrom, if_neg (by decide), hStart, ih]
      rfl

end Pieces

------------------------------------------------------------
-- Identifiers
------------------------------------------------------------

/- A qualified name as one word. -/
def identifierOf (name : String) : String :=
  String.ofList (Text.replaceAll separator ['_'] name.toList)

/-
  Two names can be confused if, cut from left to right, they are
  the same up to which of their gaps are separators.
-/
def Confusable (first second : String) : Prop :=
  List.Forall₂ Piece.Alike (pieces first.toList) (pieces second.toList)

instance (first second : String) : Decidable (Confusable first second) :=
  inferInstanceAs (Decidable (List.Forall₂ Piece.Alike
    (pieces first.toList) (pieces second.toList)))

section Identifiers

variable {first second : String}

/- Names have the same identifier if they can be confused. -/
theorem identifierOf_eq_iff :
    identifierOf first = identifierOf second ↔
      Confusable first second := by
  rw [identifierOf, identifierOf, String.ofList_inj,
    replaceAll_separator, replaceAll_separator, Confusable,
    ← List.forall₂_eq_eq_eq, List.forall₂_map_left_iff,
    List.forall₂_map_right_iff]
  simp only [Piece.glyph_eq_iff]

/- A name without a separator is its own identifier. -/
theorem identifierOf_of_not_infix
    {name : String}
    (h : ¬ separator <:+: name.toList) :
    identifierOf name = name := by
  have hLetters : ∀ piece ∈ pieces name.toList,
      [piece.glyph] = piece.spelling := by
    intro piece hPiece
    cases piece with
    | separator => exact absurd (spelling_infix_of_mem_pieces hPiece) h
    | letter c => rfl
  have hSame : (pieces name.toList).map Piece.glyph = name.toList := by
    rw [← List.flatMap_pure_eq_map]
    exact (List.flatMap_congr hLetters).trans
      (flatMap_spelling_pieces name.toList)
  rw [identifierOf, replaceAll_separator, hSame, String.ofList_toList]

/- The first two colons are the separator. -/
example : ¬Confusable "a:::b" "a:_b" ∧ Confusable "a:::b" "a_:b" := by
  decide

/- Names without the letter for gaps cannot be confused. -/
theorem Confusable.eq_of_plain
    (h : Confusable first second)
    (hFirst : '_' ∉ first.toList)
    (hSecond : '_' ∉ second.toList) :
    first = second := by
  have hSame : pieces first.toList = pieces second.toList := by
    refine List.forall₂_eq_eq_eq ▸ List.forall₂_iff_zip.mpr
      ⟨h.length_eq, fun {piece other} hZip => ?_⟩
    have hMem := List.of_mem_zip hZip
    exact (List.forall₂_zip h hZip).eq_of_ne
      (ne_of_mem_of_not_mem hMem.1 (mt mem_of_letter_mem_pieces hFirst))
      (ne_of_mem_of_not_mem hMem.2 (mt mem_of_letter_mem_pieces hSecond))
  rw [← String.toList_inj, ← flatMap_spelling_pieces first.toList,
    hSame, flatMap_spelling_pieces]

end Identifiers

------------------------------------------------------------
-- Templates
------------------------------------------------------------

section Statements

open Template

variable {scope : Scope} {subject : Expr} {value : Value}
variable {name : String}

/- The expression of a name as one word. -/
def flatExpr (subject : Expr) : Expr :=
  .filter "replace" subject
    [.const (.plain "::"), .const (.plain "_")] []

theorem evalExpr_flatExpr
    {globals : Globals}
    (h : evalExpr globals scope subject = .ok value) :
    evalExpr globals scope (flatExpr subject) =
      .ok (.plain (identifierOf value.display)) := by
  rw [flatExpr, evalExpr, h]
  rfl

theorem evalExpr_flatName
    {globals : Globals}
    {word : String}
    (hWord : globals.lookup scope word = .plain name) :
    evalExpr globals scope (flatExpr (.name word)) =
      .ok (.plain (identifierOf name)) :=
  @evalExpr_flatExpr scope (.name word) (.plain name) globals
    (by rw [evalExpr, hWord])

end Statements

end Bindery
