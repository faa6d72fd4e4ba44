import AbnStore.Basic

/-!
# Deleting untracked versions

Model of `deleteUntrackedVersions` (`applicationmap.go:249-267`): collect the versions that no
track names into `toDelete`, then `delete` each of them from `a.Versions`.

* Go ranges over a map in an unspecified order, picked anew each time a `range` starts, so the
  loops take their orders as parameters: `versions`, the order in which `range a.Versions` visits
  the version names, and `tracks version`, the order in which the inner `range a.Tracks`, run for
  `version`, visits the tracks' versions. `RangeOrder` says each visits every entry once.
* The inner loop starts from `track := ""` and the outer one tests `track == ""`, so `""` stands
  for "no track names this version". A version that is itself named `""` is reported as untracked
  whichever tracks name it.

Results:
* `deleteUntrackedVersions_lookup`: after the call, a version keeps its `*Version` when its name is
  not `""` and some track names it, and is gone otherwise, for every iteration order. Name and
  tracks are untouched (`deleteUntrackedVersions_name`, `deleteUntrackedVersions_tracks`).
* `empty_version_deleted`: the version `""`, named by the track `candidate`, is deleted, for every
  iteration order.
-/

namespace AbnStore

/-- The inner loop: the first track's version equal to `version`, `""` when there is none. -/
def findTrack (version : String) : List String → String
  | [] => ""
  | ver :: vers => if ver = version then ver else findTrack version vers

/-- The outer loop: `toDelete`, the visited versions whose `track` stays `""`, in order; the inner
loop run for `version` visits the tracks' versions in the order `tracks version`. -/
def toDelete (tracks : String → List String) (versions : List String) : List String :=
  versions.foldl (fun acc version =>
    if findTrack version (tracks version) = "" then acc ++ [version] else acc) []

/-- `deleteUntrackedVersions(a)`, with `range` visiting `a.Versions` in the order `versions` and,
for each `version`, `a.Tracks` in the order `tracks version`. -/
def deleteUntrackedVersions (a : Application) (versions : List String)
    (tracks : String → List String) : Application :=
  { a with versions := (toDelete tracks versions).foldl (fun vs version => vs.erase version) a.versions }

/-- The orders in which `range` visits the version names of `a.Versions`, and, each time the inner
loop starts, the versions of `a.Tracks`. -/
structure RangeOrder (a : Application) (versions : List String) (tracks : String → List String) :
    Prop where
  versions : versions.Perm a.versions.keys
  tracks : ∀ version, (tracks version).Perm (a.tracks.entries.map (·.2))

/-- Some track of `a` names the version `v`. -/
def Tracked (a : Application) (v : String) : Prop := ∃ t, a.tracks.lookup t = some v

theorem mem_tracks_iff {a : Application} {v : String} :
    v ∈ a.tracks.entries.map (·.2) ↔ Tracked a v := by
  simp only [Tracked, List.mem_map, AList.lookup, ← Option.mem_def,
    List.mem_dlookup_iff a.tracks.nodupKeys]
  exact ⟨fun ⟨e, he, hv⟩ => ⟨e.1, hv ▸ he⟩, fun ⟨t, ht⟩ => ⟨_, ht, rfl⟩⟩

instance (a : Application) (v : String) : Decidable (Tracked a v) :=
  decidable_of_iff _ mem_tracks_iff

@[simp] theorem deleteUntrackedVersions_name (a : Application) (versions : List String)
    (tracks : String → List String) :
    (deleteUntrackedVersions a versions tracks).name = a.name := rfl

@[simp] theorem deleteUntrackedVersions_tracks (a : Application) (versions : List String)
    (tracks : String → List String) :
    (deleteUntrackedVersions a versions tracks).tracks = a.tracks := rfl

theorem findTrack_eq (version : String) :
    ∀ tracks : List String, findTrack version tracks = if version ∈ tracks then version else ""
  | [] => rfl
  | ver :: vers => by
    by_cases h : ver = version
    · simp [findTrack, h]
    · simp [findTrack, h, findTrack_eq version vers, Ne.symm h]

theorem mem_foldl_toDelete (tracks : String → List String) (v : String) :
    ∀ (versions acc : List String),
      v ∈ versions.foldl (fun acc version =>
          if findTrack version (tracks version) = "" then acc ++ [version] else acc) acc ↔
        v ∈ acc ∨ v ∈ versions ∧ findTrack v (tracks v) = ""
  | [], acc => by simp
  | w :: ws, acc => by
    rw [List.foldl_cons, mem_foldl_toDelete tracks v ws]
    by_cases hv : v = w
    · subst hv
      split <;> simp [*]
    · split <;> simp [hv]

theorem mem_toDelete {tracks : String → List String} {versions : List String} {v : String} :
    v ∈ toDelete tracks versions ↔ v ∈ versions ∧ findTrack v (tracks v) = "" := by
  simp [toDelete, mem_foldl_toDelete]

theorem lookup_foldl_erase (v : String) :
    ∀ (ds : List String) (m : GoMap String VersionRef),
      (ds.foldl (fun vs version => vs.erase version) m).lookup v = if v ∈ ds then none else m.lookup v
  | [], m => rfl
  | d :: ds, m => by
    rw [List.foldl_cons, lookup_foldl_erase v ds]
    by_cases hv : v = d
    · subst hv
      simp
    · simp [hv, AList.lookup_erase_ne hv]

/-- **What `deleteUntrackedVersions` keeps**: a version named by some track, unless its name is
`""`; what it keeps still points to the same `*Version`. -/
theorem deleteUntrackedVersions_lookup {a : Application} {versions : List String}
    {tracks : String → List String} (h : RangeOrder a versions tracks) (v : String) :
    (deleteUntrackedVersions a versions tracks).versions.lookup v =
      if v ≠ "" ∧ Tracked a v then a.versions.lookup v else none := by
  have hv : v ∈ versions ↔ v ∈ a.versions := by rw [h.versions.mem_iff, AList.mem_keys]
  have ht : v ∈ tracks v ↔ Tracked a v := by rw [(h.tracks v).mem_iff, mem_tracks_iff]
  simp only [deleteUntrackedVersions, lookup_foldl_erase, mem_toDelete, findTrack_eq, hv, ht]
  by_cases hm : v ∈ a.versions
  · rcases eq_or_ne v "" with rfl | he
    · simp [hm]
    · by_cases hT : Tracked a v <;> simp [hm, hT, he]
  · simp [hm, AList.lookup_eq_none.mpr hm]

/-- Version `v1` untracked, `v2` tracked by `candidate`. -/
theorem deleteUntrackedVersions_lookup_v1 :
    let a : Application :=
      { name := "default/application", tracks := AList.singleton "candidate" "v2",
        versions := (AList.singleton "v2" 2).insert "v1" 1 }
    RangeOrder a ["v1", "v2"] (fun _ => ["v2"]) ∧
      (deleteUntrackedVersions a ["v1", "v2"] (fun _ => ["v2"])).versions.lookup "v1" =
        if "v1" ≠ "" ∧ Tracked a "v1" then a.versions.lookup "v1" else none := by
  intro a
  have h : RangeOrder a ["v1", "v2"] (fun _ => ["v2"]) := ⟨by decide, fun _ => by decide⟩
  exact ⟨h, deleteUntrackedVersions_lookup h "v1"⟩

/-- **A tracked version named `""` is deleted**, in whatever order the loops visit the maps:
`a.Versions = {"": 0}`, `a.Tracks = {candidate: ""}`. -/
theorem empty_version_deleted :
    let a : Application :=
      { name := "default/application", tracks := AList.singleton "candidate" "",
        versions := AList.singleton "" 0 }
    a.tracks.lookup "candidate" = some "" ∧ "" ∈ a.versions ∧ RangeOrder a [""] (fun _ => [""]) ∧
      ∀ versions tracks, RangeOrder a versions tracks →
        "" ∉ (deleteUntrackedVersions a versions tracks).versions := by
  refine ⟨by decide, by decide, ⟨by decide, fun _ => by decide⟩, fun versions tracks h => ?_⟩
  have hv : "" ∈ versions := h.versions.mem_iff.mpr (by decide)
  rw [← AList.lookup_eq_none]
  simp [deleteUntrackedVersions, lookup_foldl_erase, mem_toDelete, findTrack_eq, hv]

end AbnStore
