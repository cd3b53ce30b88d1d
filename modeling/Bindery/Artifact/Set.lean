import Bindery.Keyed

/-
  This file defines sets of generated files.  A set has one
  content per path and keeps the order in which its paths were
  first inserted.

  Key definitions include:
    * `ArtifactSet`
    * `ArtifactSet.insert`
    * `ArtifactSet.ofList`
    * `ArtifactSet.merge`
    * `ArtifactSet.sameFiles`
-/

namespace Bindery

/- Generated files by path, every path once. -/
structure ArtifactSet where
  files : List (String × String)
  distinct : (Keyed.keys files).Nodup

namespace ArtifactSet

/- Sets with the same files in the same order are equal. -/
@[ext]
theorem ext
    {a b : ArtifactSet}
    (h : a.files = b.files) :
    a = b := by
  cases a
  cases b
  cases h
  rfl

/- The set without files. -/
def empty : ArtifactSet where
  files := []
  distinct := List.nodup_nil

instance : Inhabited ArtifactSet :=
  ⟨empty⟩

instance : EmptyCollection ArtifactSet :=
  ⟨empty⟩

/-
  Insert a file: a path that is there keeps its place and gets
  the new content.
-/
def insert
    (set : ArtifactSet)
    (path content : String) : ArtifactSet where
  files := Keyed.put path content set.files
  distinct :=
    Keyed.nodup_keys_put path content set.files set.distinct

/- The content at a path. -/
def get?
    (set : ArtifactSet)
    (path : String) : Option String :=
  Keyed.get? path set.files

/- Whether there is a file at a path. -/
def contains
    (set : ArtifactSet)
    (path : String) : Bool :=
  (set.get? path).isSome

/- The paths in order. -/
def paths (set : ArtifactSet) : List String :=
  Keyed.keys set.files

/- The number of files. -/
def size (set : ArtifactSet) : Nat :=
  set.files.length

/- Whether there is no file. -/
def isEmpty (set : ArtifactSet) : Bool :=
  set.files.isEmpty

/- Insert several files one after the other. -/
def insertAll
    (set : ArtifactSet)
    (files : List (String × String)) : ArtifactSet :=
  files.foldl (fun s file => s.insert file.1 file.2) set

/- The set of several files inserted one after the other. -/
def ofList (files : List (String × String)) : ArtifactSet :=
  empty.insertAll files

/- Add the files of another set, whose contents win. -/
def merge (set other : ArtifactSet) : ArtifactSet :=
  set.insertAll other.files

/- Whether two sets have the same files, in whatever order. -/
def sameFiles (a b : ArtifactSet) : Bool :=
  a.size == b.size &&
    a.files.all (fun file => b.get? file.1 == some file.2)

end ArtifactSet

end Bindery
