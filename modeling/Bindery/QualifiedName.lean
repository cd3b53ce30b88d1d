import Bindery.Text.Separated

/-
  This file defines names of declarations.  A name is a list
  of segments, outermost first; its qualified form has `::`
  between the segments.

  Key definitions include:
    * `separator`
    * `qualifiedName`
    * `enclosingNamespace`
    * `namespaceOf`
    * `localName`
-/

namespace Bindery

/- What stands between the segments of a qualified name. -/
def separator : List Char :=
  [':', ':']

/- Segments joined by the separator, otherwise unchanged. -/
def qualifiedName (segments : List String) : String :=
  String.ofList (separator.intercalate (segments.map String.toList))

/-
  The qualified name of all segments but the last; empty for
  a name of at most one segment.
-/
def enclosingNamespace (segments : List String) : String :=
  qualifiedName segments.dropLast

/-
  What stands before the last separator of a qualified name;
  empty if there is none.
-/
def namespaceOf (name : String) : String :=
  match Text.splitLast separator name.toList with
  | some (before, _) => String.ofList before
  | none => ""

/-
  What stands after the last separator of a qualified name;
  the whole name if there is none.
-/
def localName (name : String) : String :=
  match Text.splitLast separator name.toList with
  | some (_, after) => String.ofList after
  | none => name

end Bindery
