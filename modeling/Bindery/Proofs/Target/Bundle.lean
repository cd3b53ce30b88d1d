import Bindery.Proofs.Artifact.Insertion
import Bindery.Proofs.Files.Limits
import Bindery.Proofs.Files.Ordinary
import Bindery.Proofs.Files.Walk
import Bindery.Proofs.Sequence
import Bindery.Target.RuntimeBundle

/-
  This file says what bundling the support files of a target
  comes to: all regular files below a directory must be texts
  with paths within the limits, and each of them has a path of
  its own in the output, with the names on the way to it after
  the name of the support directory.

  Key definitions include:
    * `bundledFile`
    * `IsText`
    * `visitOutcome`
    * `Hinders`
    * `FindsNode`
    * `IsBundle`

  Key theorems include:
    * `names_bundlePath`
    * `bundleFrom_eq_ok_iff`
    * `bundleFrom_eq_error_iff`
    * `bundleRuntime_of_texts`
    * `visitOutcome_eq_error_iff`
    * `files_ofList_bundledFile`
    * `bundleRuntime_eq_ok_iff_isBundle`
-/

namespace Bindery

open FileSystem

------------------------------------------------------------
-- Paths of Support Files
------------------------------------------------------------

section Paths

variable {loc other : Location}

theorem toList_bundlePath (loc : Location) :
    (bundlePath loc).toList =
      ['/'].intercalate ((runtimeDirectory :: loc).map String.toList) := by
  simp [bundlePath]

theorem splitAt_bundlePath
    (h : ∀ name ∈ loc, Path.IsName name) :
    Text.splitAt '/' (bundlePath loc).toList =
      (runtimeDirectory :: loc).map String.toList := by
  rw [toList_bundlePath]
  apply Text.splitAt_intercalate (by simp)
  intro part hPart
  rcases List.mem_map.mp hPart with ⟨name, hName, rfl⟩
  rcases List.mem_cons.mp hName with rfl | hName
  · decide
  · exact (h name hName).slash_not_mem

/- A path of names that can be entered is ordinary. -/
theorem isOrdinary_bundlePath
    (h : ∀ name ∈ loc, Path.IsName name) :
    Path.IsOrdinary (bundlePath loc) := by
  have hRuntime : Path.IsName runtimeDirectory := by decide
  intro piece hPiece
  rw [splitAt_bundlePath h] at hPiece
  rcases List.mem_map.mp hPiece with ⟨name, hName, rfl⟩
  have hIsName : Path.IsName name := by
    rcases List.mem_cons.mp hName with rfl | hName
    · exact hRuntime
    · exact h name hName
  have hOrdinary := Path.IsOrdinary.of_isName hIsName
  apply hOrdinary name.toList
  rw [Text.splitAt_of_not_mem hIsName.slash_not_mem]
  exact List.mem_singleton_self _

/- The way to a support file goes through the support directory. -/
theorem names_bundlePath
    (h : ∀ name ∈ loc, Path.IsName name) :
    Path.names (bundlePath loc) = runtimeDirectory :: loc := by
  rw [(isOrdinary_bundlePath h).names, splitAt_bundlePath h,
    List.map_map]
  simp [Function.comp_def]

theorem bundlePath_injective
    (h : ∀ name ∈ loc, Path.IsName name)
    (hOther : ∀ name ∈ other, Path.IsName name)
    (hEq : bundlePath loc = bundlePath other) :
    loc = other := by
  have hNames := congrArg Path.names hEq
  rw [names_bundlePath h, names_bundlePath hOther] at hNames
  exact (List.cons.inj hNames).2

end Paths

------------------------------------------------------------
-- Bundling Files
------------------------------------------------------------

/- Whether bytes are a text. -/
def IsText (bytes : ByteArray) : Prop :=
  ∃ text, textOf bytes = .ok text

/- The text that bytes are. -/
def asText (bytes : ByteArray) : String :=
  (textOf bytes).toOption.getD ""

/- What a support file becomes in the output. -/
def bundledFile (file : Location × ByteArray) : String × String :=
  (bundlePath file.1, asText file.2)

theorem asText_of_textOf
    {bytes : ByteArray}
    {text : String}
    (h : textOf bytes = .ok text) :
    asText bytes = text := by
  simp [asText, h, Except.toOption]

/- The bytes of a text are what it was read from. -/
theorem toUTF8_asText
    {bytes : ByteArray}
    (h : IsText bytes) :
    (asText bytes).toUTF8 = bytes := by
  rcases h with ⟨text, hText⟩
  rw [asText_of_textOf hText]
  unfold textOf String.fromUTF8? at hText
  split at hText
  · rename_i found hFound
    obtain rfl : found = text := by simpa using hText
    split at hFound
    · obtain rfl := Option.some.inj hFound
      rfl
    · simp at hFound
  · simp at hText

------------------------------------------------------------
-- Going Through
------------------------------------------------------------

section Bundling

variable {fs : FileSystem} {root : String}
variable {visits : List (Location × Node.Kind)}
variable {artifacts set : ArtifactSet} {e : GenerationError}

/- What is gone through is read by its path. -/
def visitOutcome
    (fs : FileSystem)
    (root : String)
    (visit : Location × Node.Kind) : Except FileError (Option String) :=
  readVisit fs (Path.joinAll root visit.1) visit.2

/- Whether what is gone through can be read. -/
def IsReadable
    (fs : FileSystem)
    (root : String)
    (visit : Location × Node.Kind) : Prop :=
  ∃ text?, visitOutcome fs root visit = .ok text?

/- What is gone through adds to the output if it is a text. -/
def bundledVisit
    (fs : FileSystem)
    (root : String)
    (visit : Location × Node.Kind) : Option (String × String) :=
  (visitOutcome fs root visit).toOption.join.map
    fun text => (bundlePath visit.1, text)

theorem bundledVisit_of_ok
    {visit : Location × Node.Kind}
    {text? : Option String}
    (h : visitOutcome fs root visit = .ok text?) :
    bundledVisit fs root visit =
      text?.map fun text => (bundlePath visit.1, text) := by
  simp [bundledVisit, h, Except.toOption]

/- The first thing is read before the others. -/
theorem outcome_bundleFrom_cons
    (visit : Location × Node.Kind)
    (rest : List (Location × Node.Kind))
    (artifacts : ArtifactSet) :
    (bundleFrom fs root (visit :: rest) artifacts).outcome =
      match visitOutcome fs root visit with
      | .error cause =>
          .error (.unreadable (Path.joinAll root visit.1) (.file cause))
      | .ok _ =>
          (bundleFrom fs root rest (artifacts.insertAll
            (bundledVisit fs root visit).toList)).outcome := by
  rcases visit with ⟨loc, kind⟩
  cases hRead : visitOutcome fs root (loc, kind) with
  | error cause =>
      rw [visitOutcome] at hRead
      simp [bundleFrom, hRead]
  | ok text? =>
      rw [bundledVisit_of_ok hRead]
      rw [visitOutcome] at hRead
      cases text? with
      | none => simp [bundleFrom, hRead, ArtifactSet.insertAll]
      | some text =>
          simp [bundleFrom, hRead, ArtifactSet.insertAll, Except.bind]

/- If everything can be read, the texts are inserted in order. -/
theorem outcome_bundleFrom
    (artifacts : ArtifactSet)
    (h : ∀ visit ∈ visits, IsReadable fs root visit) :
    (bundleFrom fs root visits artifacts).outcome =
      .ok (artifacts.insertAll
        (visits.filterMap (bundledVisit fs root))) := by
  induction visits generalizing artifacts with
  | nil => rfl
  | cons visit rest ih =>
      rcases List.forall_mem_cons.mp h with ⟨⟨text?, hText⟩, hRest⟩
      simp only [outcome_bundleFrom_cons, hText, ih _ hRest]
      cases hVisit : bundledVisit fs root visit with
      | none => rw [List.filterMap_cons_none hVisit]; rfl
      | some file => rw [List.filterMap_cons_some hVisit]; rfl

/- Bundling fails at the first thing that cannot be read. -/
theorem bundleFrom_eq_error_iff :
    (bundleFrom fs root visits artifacts).outcome = .error e ↔
      ∃ before visit after, visits = before ++ visit :: after ∧
        (∀ earlier ∈ before, IsReadable fs root earlier) ∧
        ∃ cause, visitOutcome fs root visit = .error cause ∧
          e = .unreadable (Path.joinAll root visit.1)
            (.file cause) := by
  induction visits generalizing artifacts with
  | nil => simp [bundleFrom, Traced.pure]
  | cons visit rest ih =>
      rw [outcome_bundleFrom_cons, exists_first_cons_iff]
      cases hRead : visitOutcome fs root visit with
      | error cause => simp [IsReadable, hRead, eq_comm]
      | ok text? => simp [IsReadable, hRead, ih]

/- Bundling succeeds exactly if everything can be read. -/
theorem bundleFrom_eq_ok_iff :
    (bundleFrom fs root visits artifacts).outcome = .ok set ↔
      (∀ visit ∈ visits, IsReadable fs root visit) ∧
        artifacts.insertAll
          (visits.filterMap (bundledVisit fs root)) = set := by
  constructor
  · intro h
    have hAll : ∀ visit ∈ visits, IsReadable fs root visit := by
      induction visits generalizing artifacts with
      | nil => simp
      | cons visit rest ih =>
          rw [outcome_bundleFrom_cons] at h
          cases hRead : visitOutcome fs root visit with
          | error cause => simp [hRead] at h
          | ok text? =>
              rw [hRead] at h
              exact List.forall_mem_cons.mpr ⟨⟨text?, hRead⟩, ih h⟩
    rw [outcome_bundleFrom artifacts hAll] at h
    exact ⟨hAll, Except.ok.inj h⟩
  · rintro ⟨hAll, rfl⟩
    exact outcome_bundleFrom artifacts hAll

theorem bundleRuntime_of_stat
    {node : Node}
    (h : fs.stat root = .ok node) :
    bundleRuntime fs root =
      if node.isDirectory then bundleFrom fs root node.visits .empty
      else
        Traced.fail (.unreadable root
          (.other "runtime bundle root is not a directory")) := by
  rw [bundleRuntime, h]

/- A directory is bundled if everything below it can be read. -/
theorem bundleRuntime_eq_ok_iff :
    (bundleRuntime fs root).outcome = .ok set ↔
      ∃ node, fs.stat root = .ok node ∧ node.isDirectory = true ∧
        (∀ visit ∈ node.visits, IsReadable fs root visit) ∧
        ArtifactSet.ofList
          (node.visits.filterMap (bundledVisit fs root)) = set := by
  unfold bundleRuntime
  cases hStat : fs.stat root with
  | error cause => simp
  | ok node =>
      by_cases hDirectory : node.isDirectory = true
      · simp [hDirectory, bundleFrom_eq_ok_iff, ArtifactSet.ofList]
      · simp [hDirectory]

/- A directory with nothing but texts in it gives these texts. -/
theorem bundleRuntime_of_texts
    {entries : List (String × Node)}
    {texts : List (String × String)}
    (hStat : fs.stat root = .ok (.directory entries))
    (hVisits : (Node.directory entries).visits =
      ([], .directory) :: texts.map fun text => ([text.1], .file))
    (hTexts : ∀ text ∈ texts,
      fs.stat (Path.join root text.1) = .ok (.file text.2.toUTF8)) :
    (bundleRuntime fs root).outcome =
      .ok (ArtifactSet.ofList
        (texts.map fun text => (bundlePath [text.1], text.2))) := by
  have hRoot : visitOutcome fs root ([], .directory) = .ok none := by
    change (fs.listDirectory root).map _ = _
    rw [listDirectory, hStat]
    rfl
  have hText : ∀ text ∈ texts,
      visitOutcome fs root ([text.1], .file) = .ok (some text.2) := by
    intro text hMem
    change (fs.readText (Path.join root text.1)).map some = _
    rw [readText_of_stat (hTexts text hMem)]
    rfl
  refine bundleRuntime_eq_ok_iff.mpr ⟨_, hStat, rfl, ?_, ?_⟩
  · rw [hVisits, List.forall_mem_cons, List.forall_mem_map]
    exact ⟨⟨none, hRoot⟩, fun text hMem => ⟨_, hText text hMem⟩⟩
  · rw [hVisits, List.filterMap_cons_none (bundledVisit_of_ok hRoot),
      List.filterMap_map, ← List.filterMap_eq_map]
    congr 1
    apply List.filterMap_congr
    intro text hMem
    exact bundledVisit_of_ok (hText text hMem)

end Bundling

------------------------------------------------------------
-- What Can Be Read
------------------------------------------------------------

section Reading

variable {fs : FileSystem} {root : String} {dir loc : Location}
variable {entry : Entry} {node : Node} {kind : Node.Kind}
variable {set : ArtifactSet}

/- What an entry adds to the output by its content. -/
def textIn : Entry → Except FileError (Option String)
| .file content => (textOf content).map some
| _ => .ok none

/- What is there is read unless its path is refused. -/
theorem visitOutcome_of_entry
    (hRootNe : root ≠ "")
    (hRoot : fs.LeadsTo root dir)
    (hNames : ∀ name ∈ loc, Path.IsName name)
    (hEntry : fs.entryAt? (dir ++ loc) = some entry)
    (hKind : Node.entryKind? entry = some kind) :
    visitOutcome fs root (loc, kind) =
      (checkLimits (Path.joinAll root loc)).bind
        fun _ => textIn entry := by
  cases entry with
  | link target => simp [Node.entryKind?] at hKind
  | file content =>
      obtain rfl : .file = kind := Option.some.inj hKind
      rw [visitOutcome, readVisit,
        readText_joinAll hRootNe hRoot hNames hEntry]
      cases checkLimits (Path.joinAll root loc) <;> rfl
  | directory =>
      obtain rfl : .directory = kind := Option.some.inj hKind
      rcases entryAt?_eq_directory_iff.mp hEntry with ⟨entries, hNode⟩
      rw [visitOutcome, readVisit,
        listDirectory_joinAll hRootNe hRoot hNames hNode]
      cases checkLimits (Path.joinAll root loc) <;> rfl

/- What keeps an entry from being read by a path. -/
inductive Hinders (path : String) : Entry → FileError → Prop where
| refused {entry : Entry} {cause : FileError} :
    (∀ target, entry ≠ .link target) →
    checkLimits path = .error cause →
    Hinders path entry cause
| notText {content : ByteArray} :
    Path.FitsLimits path →
    ¬ IsText content →
    Hinders path (.file content) .notText

theorem textOf_eq_error_iff
    {content : ByteArray}
    {cause : FileError} :
    textOf content = .error cause ↔
      cause = .notText ∧ ¬ IsText content := by
  unfold IsText textOf
  cases String.fromUTF8? content with
  | none => simp [eq_comm]
  | some text => simp

/- What is there is not read exactly if something hinders it. -/
theorem visitOutcome_eq_error_iff
    {cause : FileError}
    (hRootNe : root ≠ "")
    (hRoot : fs.LeadsTo root dir)
    (hNames : ∀ name ∈ loc, Path.IsName name)
    (hEntry : fs.entryAt? (dir ++ loc) = some entry)
    (hKind : Node.entryKind? entry = some kind) :
    visitOutcome fs root (loc, kind) = .error cause ↔
      Hinders (Path.joinAll root loc) entry cause := by
  have hLink : ∀ target, entry ≠ .link target := by
    rintro target rfl
    simp [Node.entryKind?] at hKind
  rw [visitOutcome_of_entry hRootNe hRoot hNames hEntry hKind]
  constructor
  · intro h
    cases hLimits : checkLimits (Path.joinAll root loc) with
    | error other =>
        rw [hLimits] at h
        obtain rfl : other = cause := Except.error.inj h
        exact .refused hLink hLimits
    | ok u =>
        rw [hLimits] at h
        change textIn entry = .error cause at h
        cases entry with
        | link target => exact absurd rfl (hLink target)
        | directory => simp [textIn] at h
        | file content =>
            have hText : textOf content = .error cause := by
              cases hContent : textOf content with
              | ok text => simp [textIn, hContent, Except.map] at h
              | error other =>
                  simpa [textIn, hContent, Except.map] using h
            rcases textOf_eq_error_iff.mp hText with ⟨rfl, hNot⟩
            exact .notText (checkLimits_eq_ok_iff.mp hLimits) hNot
  · intro h
    cases h with
    | refused _ hLimits => rw [hLimits]; rfl
    | notText hLimits hNot =>
        rw [checkLimits_eq_ok_iff.mpr hLimits]
        change (textOf _).map some = _
        rw [textOf_eq_error_iff.mpr ⟨rfl, hNot⟩]
        rfl

/- What is there can be read exactly if nothing hinders it. -/
theorem isReadable_iff
    (hRootNe : root ≠ "")
    (hRoot : fs.LeadsTo root dir)
    (hNames : ∀ name ∈ loc, Path.IsName name)
    (hEntry : fs.entryAt? (dir ++ loc) = some entry)
    (hKind : Node.entryKind? entry = some kind) :
    IsReadable fs root (loc, kind) ↔
      ∀ cause, ¬ Hinders (Path.joinAll root loc) entry cause := by
  have hIff := fun cause => @visitOutcome_eq_error_iff fs root dir loc
    entry kind cause hRootNe hRoot hNames hEntry hKind
  rw [IsReadable]
  cases hOutcome : visitOutcome fs root (loc, kind) with
  | ok text? => simpa [hOutcome] using hIff
  | error cause => simpa [hOutcome] using ⟨cause, (hIff cause).mp hOutcome⟩

theorem not_hinders_iff {path : String} :
    (∀ cause, ¬ Hinders path entry cause) ↔
      ((∀ target, entry ≠ .link target) → Path.FitsLimits path) ∧
        ∀ content, entry = .file content → IsText content := by
  constructor
  · intro h
    have hLimits : (∀ target, entry ≠ .link target) →
        Path.FitsLimits path := by
      intro hLink
      cases hCheck : checkLimits path with
      | ok u => exact checkLimits_eq_ok_iff.mp hCheck
      | error cause => exact absurd (.refused hLink hCheck) (h cause)
    refine ⟨hLimits, ?_⟩
    rintro content rfl
    by_contra hNot
    exact h _ (.notText (hLimits (by simp)) hNot)
  · rintro ⟨hLimits, hText⟩ cause hHinders
    cases hHinders with
    | refused hLink hCheck =>
        rw [checkLimits_eq_ok_iff.mpr (hLimits hLink)] at hCheck
        cases hCheck
    | notText _ hNot => exact hNot (hText _ rfl)

/- What is added for something that can be read. -/
theorem bundledVisit_of_isReadable
    (hRootNe : root ≠ "")
    (hRoot : fs.LeadsTo root dir)
    (hNames : ∀ name ∈ loc, Path.IsName name)
    (hEntry : fs.entryAt? (dir ++ loc) = some entry)
    (hKind : Node.entryKind? entry = some kind)
    (hReadable : IsReadable fs root (loc, kind)) :
    bundledVisit fs root (loc, kind) =
      (Node.content? entry).map
        fun content => bundledFile (loc, content) := by
  rcases hReadable with ⟨text?, hText⟩
  rw [bundledVisit_of_ok hText]
  rw [visitOutcome_of_entry hRootNe hRoot hNames hEntry hKind] at hText
  cases hLimits : checkLimits (Path.joinAll root loc) with
  | error cause => simp [hLimits, Except.bind] at hText
  | ok u =>
      rw [hLimits] at hText
      change textIn entry = .ok text? at hText
      cases entry with
      | link target => simp [Node.entryKind?] at hKind
      | directory =>
          obtain rfl : none = text? := Except.ok.inj hText
          rfl
      | file content =>
          cases hContent : textOf content with
          | error cause => simp [textIn, hContent, Except.map] at hText
          | ok text =>
              rw [textIn, hContent] at hText
              obtain rfl : some text = text? := Except.ok.inj hText
              simp [Node.content?, bundledFile,
                asText_of_textOf hContent]

end Reading

------------------------------------------------------------
-- Proper Directories
------------------------------------------------------------

section Proper

variable {fs : FileSystem} {root : String} {dir : Location}
variable {node : Node} {set : ArtifactSet}

theorem isName_of_mem_files
    (h : node.IsProper)
    {file : Location × ByteArray}
    (hFile : file ∈ node.files) :
    ∀ name ∈ file.1, Path.IsName name := by
  apply h.isName_of_mem
  have hEntry := (Node.mem_files_iff h).mp hFile
  intro hNone
  simp [Node.entryAt?, hNone] at hEntry

/- The files below a proper directory have distinct paths. -/
theorem nodup_bundledFile (h : node.IsProper) :
    ((node.files.map bundledFile).map Prod.fst).Nodup := by
  rw [List.map_map, List.Nodup, List.pairwise_map]
  refine (Node.ascending_files h).imp_of_mem ?_
  intro file other hFile hOther hLess hEq
  have hSame := bundlePath_injective (isName_of_mem_files h hFile)
    (isName_of_mem_files h hOther) hEq
  rw [hSame] at hLess
  exact List.lt_irrefl _ hLess

/- A set of support files is the files that are gone through. -/
theorem files_ofList_bundledFile (h : node.IsProper) :
    (ArtifactSet.ofList (node.files.map bundledFile)).files =
      node.files.map bundledFile :=
  ArtifactSet.files_ofList (nodup_bundledFile h)

/- A path finds a proper directory in a file system. -/
structure FindsNode
    (fs : FileSystem)
    (root : String)
    (dir : Location)
    (node : Node) : Prop where
  check : checkPath root = .ok ()
  leads : fs.LeadsTo root dir
  found : fs.at? dir = some node
  proper : node.IsProper

namespace FindsNode

theorem ne_empty (h : FindsNode fs root dir node) : root ≠ "" :=
  ne_empty_of_checkPath h.check

theorem isDirectory (h : FindsNode fs root dir node) :
    node.isDirectory = true := by
  rcases entryAt?_eq_directory_iff.mp h.leads.directory with
    ⟨entries, hNode⟩
  obtain rfl := Option.some.inj (h.found.symm.trans hNode)
  rfl

theorem stat (h : FindsNode fs root dir node) :
    fs.stat root = .ok node :=
  stat_eq_ok_iff.mpr
    ⟨dir, (resolve_eq_present_iff_leadsTo h.leads.directory).mpr
      ⟨h.check, h.leads⟩, h.found⟩

/- Everything that is gone through is there and has proper names. -/
theorem of_mem_visits
    (h : FindsNode fs root dir node)
    {visit : Location × Node.Kind}
    (hVisit : visit ∈ node.visits) :
    ∃ entry, fs.entryAt? (dir ++ visit.1) = some entry ∧
      node.entryAt? visit.1 = some entry ∧
      Node.entryKind? entry = some visit.2 ∧
      ∀ name ∈ visit.1, Path.IsName name := by
  rcases (Node.mem_visits_iff h.proper).mp hVisit with
    ⟨entry, hEntry, hKind⟩
  refine ⟨entry, (entryAt?_of_at? h.found _).trans hEntry, hEntry, hKind,
    h.proper.isName_of_mem fun hNone => ?_⟩
  simp [Node.entryAt?, hNone] at hEntry

/- What is added is the files, if everything can be read. -/
theorem filterMap_bundledVisit
    (h : FindsNode fs root dir node)
    (hReadable : ∀ visit ∈ node.visits, IsReadable fs root visit) :
    node.visits.filterMap (bundledVisit fs root) =
      node.files.map bundledFile := by
  rw [Node.files_eq_filterMap_visits h.proper, List.map_filterMap]
  apply List.filterMap_congr
  intro visit hVisit
  rcases h.of_mem_visits hVisit with ⟨entry, hEntry, hAt, hKind, hNames⟩
  rw [bundledVisit_of_isReadable h.ne_empty h.leads hNames hEntry hKind
    (hReadable visit hVisit), hAt]
  simp [Function.comp_def]

/-
  Everything below can be read if the limits hold for all of it
  and all files are texts.
-/
theorem forall_isReadable_iff (h : FindsNode fs root dir node) :
    (∀ visit ∈ node.visits, IsReadable fs root visit) ↔
      (∀ visit ∈ node.visits,
          Path.FitsLimits (Path.joinAll root visit.1)) ∧
        ∀ file ∈ node.files, IsText file.2 := by
  have hVisits : ∀ visit ∈ node.visits, ∃ entry,
      node.entryAt? visit.1 = some entry ∧
        (IsReadable fs root visit ↔
          Path.FitsLimits (Path.joinAll root visit.1) ∧
            ∀ content, entry = .file content → IsText content) := by
    intro visit hVisit
    rcases h.of_mem_visits hVisit with
      ⟨entry, hEntry, hAt, hKind, hNames⟩
    have hLink : ∀ target, entry ≠ .link target := by
      rintro target rfl
      simp [Node.entryKind?] at hKind
    exact ⟨entry, hAt, (isReadable_iff h.ne_empty h.leads hNames hEntry
      hKind).trans (not_hinders_iff.trans
        (and_congr_left' (forall_prop_of_true hLink)))⟩
  constructor
  · intro hAll
    constructor
    · intro visit hVisit
      rcases hVisits visit hVisit with ⟨entry, -, hIff⟩
      exact (hIff.mp (hAll visit hVisit)).1
    · rintro ⟨loc, content⟩ hFile
      have hEntry := (Node.mem_files_iff h.proper).mp hFile
      have hVisit : (loc, .file) ∈ node.visits :=
        (Node.mem_visits_iff h.proper).mpr ⟨_, hEntry, rfl⟩
      rcases hVisits _ hVisit with ⟨entry, hAt, hIff⟩
      obtain rfl := Option.some.inj (hEntry.symm.trans hAt)
      exact (hIff.mp (hAll _ hVisit)).2 content rfl
  · rintro ⟨hLimits, hTexts⟩ visit hVisit
    rcases hVisits visit hVisit with ⟨entry, hAt, hIff⟩
    refine hIff.mpr ⟨hLimits visit hVisit, ?_⟩
    rintro content rfl
    exact hTexts (visit.1, content)
      ((Node.mem_files_iff h.proper).mpr hAt)

end FindsNode

/- What is read as a directory is found by its path. -/
theorem exists_findsNode
    (hProper : fs.IsProper)
    (hStat : fs.stat root = .ok node)
    (hDirectory : node.isDirectory = true) :
    ∃ dir, FindsNode fs root dir node := by
  rcases stat_eq_ok_iff.mp hStat with ⟨dir, hResolve, hNode⟩
  have hLoc : fs.entryAt? dir = some .directory := by
    cases node with
    | directory entries =>
        exact entryAt?_eq_directory_iff.mpr ⟨entries, hNode⟩
    | file content => simp [Node.isDirectory] at hDirectory
    | link target => simp [Node.isDirectory] at hDirectory
  rcases (resolve_eq_present_iff_leadsTo hLoc).mp hResolve with
    ⟨hCheck, hLeads⟩
  exact ⟨dir, hCheck, hLeads, hNode, Node.IsProper.at? hProper hNode⟩

/- A set of files is the bundle of a directory. -/
structure IsBundle (set : ArtifactSet) (node : Node) : Prop where
  directory : node.isDirectory = true
  proper : node.IsProper
  texts : ∀ file ∈ node.files, IsText file.2
  files : set.files = node.files.map bundledFile

/- Bundling a proper directory gives its bundle. -/
theorem bundleRuntime_eq_ok_iff_isBundle (h : fs.IsProper) :
    (bundleRuntime fs root).outcome = .ok set ↔
      ∃ node, fs.stat root = .ok node ∧ IsBundle set node ∧
        ∀ visit ∈ node.visits,
          Path.FitsLimits (Path.joinAll root visit.1) := by
  rw [bundleRuntime_eq_ok_iff]
  refine exists_congr fun node => and_congr_right fun hStat => ?_
  constructor
  · rintro ⟨hDirectory, hReadable, rfl⟩
    rcases exists_findsNode h hStat hDirectory with ⟨dir, hFinds⟩
    rcases hFinds.forall_isReadable_iff.mp hReadable with
      ⟨hLimits, hTexts⟩
    rw [hFinds.filterMap_bundledVisit hReadable]
    exact ⟨⟨hDirectory, hFinds.proper, hTexts,
      files_ofList_bundledFile hFinds.proper⟩, hLimits⟩
  · rintro ⟨hBundle, hLimits⟩
    rcases exists_findsNode h hStat hBundle.directory with
      ⟨dir, hFinds⟩
    have hReadable := hFinds.forall_isReadable_iff.mpr
      ⟨hLimits, hBundle.texts⟩
    refine ⟨hBundle.directory, hReadable, ArtifactSet.ext ?_⟩
    rw [hFinds.filterMap_bundledVisit hReadable,
      files_ofList_bundledFile hFinds.proper, hBundle.files]

end Proper

end Bindery
