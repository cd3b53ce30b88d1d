import Bindery.Proofs.Files.Relisting
import Bindery.Proofs.Target.Assembly
import Bindery.Proofs.Text.ByteOrder

/-
  This file says what the plugin of a search path finds there
  and what it registers.  The entries of the search path that
  hold a manifest are gone through in the order of the bytes of
  their names, however the search path is listed; the first of
  their manifests that cannot be loaded is what fails, and then
  nothing at all is registered.

  Key definitions include:
    * `HoldsManifest`
    * `AreCandidates`
    * `registeredIds`

  Key theorems include:
    * `discover_eq_ok_iff`
    * `discover_eq_error_iff`
    * `discover_relisted`
    * `registeredIds_registerFound`
    * `discover_order_independent`
-/

namespace Bindery

open FileSystem

variable {fs other : FileSystem} {path : String}
variable {listed names : List String}

------------------------------------------------------------
-- Candidates
------------------------------------------------------------

/-
  Whether an entry of a search path holds a manifest: the path
  of its manifest leads to a regular file, maybe by way of links.
-/
def HoldsManifest
    (fs : FileSystem)
    (path name : String) : Prop :=
  ∃ loc content,
    fs.resolve (manifestPath (Path.join path name)) =
      .ok (.present loc) ∧
    fs.entryAt? loc = some (.file content)

theorem isFile_iff :
    fs.isFile path = true ↔
      ∃ loc content, fs.resolve path = .ok (.present loc) ∧
        fs.entryAt? loc = some (.file content) := by
  unfold isFile
  constructor
  · intro h
    split at h
    · rename_i content hStat
      rcases stat_eq_ok_iff.mp hStat with ⟨loc, hLoc, hNode⟩
      exact ⟨loc, content, hLoc, entryAt?_eq_file_iff.mpr hNode⟩
    · cases h
  · rintro ⟨loc, content, hLoc, hEntry⟩
    rw [stat_eq_ok_iff.mpr ⟨loc, hLoc, entryAt?_eq_file_iff.mp hEntry⟩]

/-
  The names among those in a directory that hold a manifest,
  each of them once, in the order of their bytes.
-/
structure AreCandidates
    (fs : FileSystem)
    (path : String)
    (listed names : List String) : Prop where
  members : ∀ name, name ∈ names ↔
    name ∈ listed ∧ HoldsManifest fs path name
  ordered : names.Pairwise fun name later =>
    Text.bytes name < Text.bytes later

/- What is listed decides which names are gone through. -/
theorem AreCandidates.unique
    {others : List String}
    (h : AreCandidates fs path listed names)
    (hOthers : AreCandidates fs path listed others) :
    names = others := by
  have hAscending : ∀ {names : List String},
      AreCandidates fs path listed names → names.Pairwise (· < ·) :=
    fun h => h.ordered.imp Text.bytes_lt_iff.mp
  apply (hAscending h).eq_of_mem_iff (hAscending hOthers)
  intro name
  rw [h.members, hOthers.members]

/- The names that are gone through. -/
def candidates
    (fs : FileSystem)
    (path : String)
    (listed : List String) : List String :=
  (ascending listed).filter fun name =>
    fs.isFile (manifestPath (Path.join path name))

theorem areCandidates_candidates (h : listed.Nodup) :
    AreCandidates fs path listed (candidates fs path listed) where
  members name := by
    rw [candidates, List.mem_filter, (ascending_perm listed).mem_iff,
      isFile_iff]
    rfl
  ordered :=
    ((pairwise_ascending_of_nodup h).imp Text.bytes_lt_iff.mpr).filter _

theorem targetDirectories_of_listed
    (h : fs.listDirectory path = .ok listed) :
    targetDirectories fs path =
      .ok ((candidates fs path listed).map (Path.join path)) := by
  simp only [targetDirectories, h, candidates, List.filter_map]
  rfl

/- The names in a proper directory are distinct. -/
theorem nodup_of_listDirectory
    (hProper : fs.IsProper)
    (h : fs.listDirectory path = .ok listed) :
    listed.Nodup := by
  unfold FileSystem.listDirectory at h
  rcases bind_eq_ok_iff.mp h with ⟨node, hStat, hKeys⟩
  rcases stat_eq_ok_iff.mp hStat with ⟨loc, -, hNode⟩
  cases node with
  | file content => simp at hKeys
  | link target => simp at hKeys
  | directory entries =>
      obtain rfl : Keyed.keys entries = listed := by simpa using hKeys
      exact (hProper loc entries hNode).1

------------------------------------------------------------
-- Discovery
------------------------------------------------------------

section Discovery

variable {found : List (String × Manifest)} {e : GenerationError}

/- What is found for a name: its directory with the manifest there. -/
def IsFound
    (fs : FileSystem)
    (path name : String)
    (entry : String × Manifest) : Prop :=
  entry.1 = Path.join path name ∧
    Manifest.load fs (manifestPath (Path.join path name)) = .ok entry.2

theorem loadManifest_eq_ok_iff
    {name : String}
    {entry : String × Manifest} :
    loadManifest fs (Path.join path name) = .ok entry ↔
      IsFound fs path name entry := by
  rw [loadManifest, IsFound]
  cases Manifest.load fs (manifestPath (Path.join path name)) with
  | error cause => simp [Bind.bind, Except.bind]
  | ok manifest =>
      rcases entry with ⟨directory, other⟩
      simp [Bind.bind, Except.bind, eq_comm]

theorem loadManifest_eq_error_iff
    {directory : String} :
    loadManifest fs directory = .error e ↔
      Manifest.load fs (manifestPath directory) = .error e := by
  rw [loadManifest]
  cases Manifest.load fs (manifestPath directory) <;>
    simp [Bind.bind, Except.bind]

theorem discover_of_listed
    (h : fs.listDirectory path = .ok listed) :
    discover fs path =
      (candidates fs path listed).mapM fun name =>
        loadManifest fs (Path.join path name) := by
  rw [discover, targetDirectories_of_listed h]
  exact List.mapM_map

/-
  Discovery succeeds exactly if all manifests can be loaded, and
  then it gives them for the candidates in order.
-/
theorem discover_eq_ok_iff (hProper : fs.IsProper) :
    discover fs path = .ok found ↔
      ∃ listed names, fs.listDirectory path = .ok listed ∧
        AreCandidates fs path listed names ∧
        List.Forall₂ (IsFound fs path) names found := by
  cases hList : fs.listDirectory path with
  | error cause =>
      simp [discover, targetDirectories, hList, Bind.bind, Except.bind]
  | ok listed =>
      have hNames := @areCandidates_candidates fs path listed
        (nodup_of_listDirectory hProper hList)
      rw [discover_of_listed hList, mapM_eq_ok_iff]
      simp only [loadManifest_eq_ok_iff]
      constructor
      · exact fun h => ⟨listed, _, rfl, hNames, h⟩
      · rintro ⟨others, names, hOthers, hCandidates, h⟩
        obtain rfl := Except.ok.inj hOthers
        rw [hNames.unique hCandidates]
        exact h

/-
  Discovery fails exactly if the search path cannot be listed or
  some manifest cannot be loaded; the first candidate of which
  that is true counts.
-/
theorem discover_eq_error_iff (hProper : fs.IsProper) :
    discover fs path = .error e ↔
      (∃ cause, fs.listDirectory path = .error cause ∧
          e = .unreadable path (.file cause)) ∨
        ∃ listed names, fs.listDirectory path = .ok listed ∧
          AreCandidates fs path listed names ∧
          ∃ before name after, names = before ++ name :: after ∧
            (∀ earlier ∈ before, ∃ entry,
              IsFound fs path earlier entry) ∧
            Manifest.load fs (manifestPath (Path.join path name)) =
              .error e := by
  cases hList : fs.listDirectory path with
  | error cause =>
      simp [discover, targetDirectories, hList, Bind.bind, Except.bind,
        eq_comm]
  | ok listed =>
      have hNames := @areCandidates_candidates fs path listed
        (nodup_of_listDirectory hProper hList)
      rw [discover_of_listed hList, mapM_eq_error_iff]
      simp only [loadManifest_eq_ok_iff, loadManifest_eq_error_iff]
      constructor
      · exact fun h => Or.inr ⟨listed, _, rfl, hNames, h⟩
      · rintro (⟨cause, hCause, -⟩ |
          ⟨others, names, hOthers, hCandidates, h⟩)
        · cases hCause
        · obtain rfl := Except.ok.inj hOthers
          rw [hNames.unique hCandidates]
          exact h

------------------------------------------------------------
-- Listings
------------------------------------------------------------

theorem manifest_load_relisted
    (hSame : fs.SameEntries other)
    (path : String) :
    Manifest.load other path = Manifest.load fs path := by
  rw [Manifest.load, Manifest.load, hSame.readText]

/- How the search path is listed does not matter. -/
theorem discover_relisted
    (path : String)
    (hProper : fs.IsProper)
    (hOther : other.IsProper)
    (hSame : fs.SameEntries other) :
    discover other path = discover fs path := by
  have hLoad : loadManifest other = loadManifest fs := by
    funext directory
    rw [loadManifest, loadManifest, manifest_load_relisted hSame]
  have hDirectories :
      targetDirectories other path = targetDirectories fs path := by
    rw [targetDirectories, targetDirectories]
    rcases hSame.listDirectory hProper hOther path with
      ⟨cause, hList, hOtherList⟩ |
      ⟨names, others, hList, hOtherList, hPerm⟩
    · rw [hList, hOtherList]
    · simp only [hList, hOtherList, ascending_eq_of_perm hPerm,
        hSame.isFile]
  rw [discover, discover, hDirectories, hLoad]

end Discovery

------------------------------------------------------------
-- Registration
------------------------------------------------------------

section Registration

variable {found : List (String × Manifest)} {e : GenerationError}

/- The target that an event tells of if it is a registration. -/
def registeredId? (event : Event) : Option String :=
  if event.topic = .registry then event.fields.lookup "id" else none

/- The targets whose registrations are among some events. -/
def registeredIds (events : List Event) : List String :=
  events.filterMap registeredId?

theorem registeredId?_registeredEvent
    (registry : Registry)
    (plugin id : String) :
    registeredId? (registry.registeredEvent plugin id) = some id := by
  rw [Registry.registeredEvent]
  cases registry.get? id <;> rfl

theorem events_registerFound_cons
    (plugin directory : String)
    (manifest : Manifest)
    (rest : List (String × Manifest))
    (registry : Registry) :
    (registerFound plugin ((directory, manifest) :: rest)
        registry).events =
      discoveredEvent directory manifest ::
        registry.registeredEvent plugin manifest.name ::
          (registerFound plugin rest
            (registry.insert plugin manifest.name
              (manifest.toTarget directory).generate)).events := rfl

/- Each target that was found is registered, in order. -/
theorem registeredIds_registerFound
    (plugin : String)
    (found : List (String × Manifest))
    (registry : Registry) :
    registeredIds (registerFound plugin found registry).events =
      found.map fun entry => entry.2.name := by
  induction found generalizing registry with
  | nil => rfl
  | cons entry rest ih =>
      rcases entry with ⟨directory, manifest⟩
      have hDiscovered :
          registeredId? (discoveredEvent directory manifest) = none := rfl
      rw [events_registerFound_cons, registeredIds,
        List.filterMap_cons_none hDiscovered,
        List.filterMap_cons_some (registeredId?_registeredEvent _ _ _),
        List.map_cons]
      exact congrArg _ (ih _)

/- If nothing is found because of an error, nothing happens at all. -/
theorem setup_ofDirectory_of_error
    (h : discover fs path = .error e)
    (registry : Registry) :
    (Plugin.ofDirectory path).setup fs registry = ⟨[], .error e⟩ := by
  change Traced.ofExcept (discover fs path) >>= _ = _
  rw [h]
  rfl

theorem setup_ofDirectory_of_ok
    (h : discover fs path = .ok found)
    (registry : Registry) :
    (Plugin.ofDirectory path).setup fs registry =
      registerFound path found registry := by
  change Traced.ofExcept (discover fs path) >>= _ = _
  rw [h]
  rfl

/-
  However the search path is listed, the same is found there: the
  entries that hold a manifest, each of them once with what was
  loaded from it, in the order of the bytes of their names.  It
  fails if the search path cannot be listed or a manifest cannot
  be loaded, and then the first such manifest in this order is
  what counts.

  In that case no target is registered, not even one of those
  that come before; otherwise all of them are, in order.
-/
theorem discover_order_independent
    (fs other : FileSystem)
    (path : String)
    (hProper : fs.IsProper)
    (hOther : other.IsProper)
    (hSame : fs.SameEntries other) :
    discover other path = discover fs path ∧
    (∀ found, discover fs path = .ok found ↔
      ∃ listed names, fs.listDirectory path = .ok listed ∧
        AreCandidates fs path listed names ∧
        List.Forall₂ (IsFound fs path) names found) ∧
    (∀ e, discover fs path = .error e ↔
      (∃ cause, fs.listDirectory path = .error cause ∧
          e = .unreadable path (.file cause)) ∨
        ∃ listed names, fs.listDirectory path = .ok listed ∧
          AreCandidates fs path listed names ∧
          ∃ before name after, names = before ++ name :: after ∧
            (∀ earlier ∈ before, ∃ entry,
              IsFound fs path earlier entry) ∧
            Manifest.load fs (manifestPath (Path.join path name)) =
              .error e) ∧
    ∀ registry,
      (∀ e, discover fs path = .error e →
        (Plugin.ofDirectory path).setup fs registry =
          ⟨[], .error e⟩) ∧
      ∀ found, discover fs path = .ok found →
        ((Plugin.ofDirectory path).setup fs registry).outcome =
            .ok (registry.insertAll
              (found.map (foundDefinition path))) ∧
          registeredIds
              ((Plugin.ofDirectory path).setup fs registry).events =
            found.map fun entry => entry.2.name := by
  refine ⟨discover_relisted path hProper hOther hSame,
    fun _ => discover_eq_ok_iff hProper,
    fun _ => discover_eq_error_iff hProper, fun registry =>
      ⟨fun e h => setup_ofDirectory_of_error h registry, fun found h => ?_⟩⟩
  rw [setup_ofDirectory_of_ok h]
  exact ⟨outcome_registerFound path found registry,
    registeredIds_registerFound path found registry⟩

/- A manifest is loaded if its text is one. -/
theorem manifest_load_of_stat
    {text : String}
    {manifest? : Option Manifest}
    (hFile : fs.stat path = .ok (.file text.toUTF8))
    (hText : (Toml.parse? text).bind Manifest.ofToml? = manifest?) :
    Manifest.load fs path =
      manifest?.elim (.error (.badManifest path)) .ok := by
  have hRead := readText_of_stat hFile
  rw [Manifest.load]
  cases manifest? <;> simp [hRead, hText]

/-
  A search path listed in two orders, with a manifest and then
  an empty one in the order of the names.
-/
theorem discover_order_independent_failing :
    let complete := Node.directory
      [("target.toml", .file "target = ['x', 'y']".toUTF8)]
    let empty := Node.directory [("target.toml", .file "".toUTF8)]
    let entries := [("b", empty), ("a", complete)]
    let fs : FileSystem := ⟨.directory [("t", .directory entries)], []⟩
    let e := GenerationError.badManifest "t/b/target.toml"
    discover (fs.put ["t"] (.directory entries.reverse)) "t" =
        .error e ∧
      ∀ registry, (Plugin.ofDirectory "t").setup fs registry =
        ⟨[], .error e⟩ := by
  intro complete empty entries fs e
  have hProper : fs.IsProper := by decide
  have hDir : fs.at? ["t"] = some (.directory entries) := rfl
  rcases SameEntries.of_perm hProper hDir (List.reverse_perm entries) with
    ⟨hSame, hOther⟩
  rcases discover_order_independent fs _ "t" hProper hOther hSame with
    ⟨hRelisted, -, hError, hSetup⟩
  have hComplete : Manifest.load fs "t/a/target.toml" =
      .ok ⟨"x", "y", [], true⟩ := by
    have hText : (Toml.parse? "target = ['x', 'y']").bind
        Manifest.ofToml? = some ⟨"x", "y", [], true⟩ := by
      decide +kernel
    exact @manifest_load_of_stat fs _ "target = ['x', 'y']" _ rfl hText
  have hEmpty : Manifest.load fs "t/b/target.toml" = .error e := by
    have hText : (Toml.parse? "").bind Manifest.ofToml? = none := by
      decide +kernel
    exact @manifest_load_of_stat fs _ "" _ rfl hText
  have hNames : AreCandidates fs "t" ["b", "a"] ["a", "b"] :=
    areCandidates_candidates (by decide)
  have hFails : discover fs "t" = .error e :=
    (hError e).mpr (Or.inr ⟨["b", "a"], ["a", "b"], rfl, hNames,
      ["a"], "b", [], rfl, List.forall_mem_singleton.mpr
        ⟨("t/a", ⟨"x", "y", [], true⟩), rfl, hComplete⟩, hEmpty⟩)
  exact ⟨hRelisted.trans hFails, fun registry =>
    (hSetup registry).1 e hFails⟩

end Registration

end Bindery
