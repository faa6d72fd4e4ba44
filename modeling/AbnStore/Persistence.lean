import AbnStore.Secrets

/-!
# The secrets behind the map

Model of the persistence half of `applicationmap.go:128-218`: `Write` stores the marshalled
application under `secretKey` in the secret that `namespaceFromKey` and `secretNameFromKey` name,
and `readFromSecret` reads that key of the secret it names with `namespaceFromKey`, `nameFromKey`
and `secretPostfix`.

Both results rest on the spec lemmas of `Write` in `Frame.lean`; the first on the stores of a run
(`Secrets.lean`) as well.

Results:
* `readFromSecret_after_write`: after any run of calls, `readFromSecret` of a key whose secret was
  last stored into by a `Write` of the application `st.app` returns no error and a new object
  named by the key with the tracks and version names of `st.app`, given a YAML library that reads
  those back from what it wrote. The versions it returns are new objects, and the last store need
  not be of the key itself: another key can name the same secret.
* `write_keeps_other_secrets`: a `Write` of an application named `namespace/name` changes no
  secret of any other key of that form.
-/

namespace AbnStore

section ReadAfterWrite

variable {batchWriteInterval : Duration}

open World

/-- A store went to a secret that existed before the run. -/
theorem mem_secrets_of_mem_storeds {w : World} {ops : List (Call × Io)} {st : Store}
    (h : st ∈ w.storeds batchWriteInterval ops) : st.coords ∈ w.cluster.secrets := by
  induction ops generalizing w with
  | nil => cases h
  | cons op ops ih =>
    rcases List.mem_append.mp h with h | h
    · obtain ⟨a, hs⟩ := Call.stored_eq_some (Option.mem_toList.mp h)
      exact (stored_eq_some hs).2.2
    · have hm := ih h
      rw [← AList.lookup_isSome, exec_secrets] at hm
      exact AList.lookup_isSome.mp (by simpa using hm)

/-- **Read after write.** After any run of calls, `readFromSecret` of a key whose secret was last
stored into by a `Write` of `st.app` returns no error and a new object named by the key with the
tracks and version names of `st.app`, when the YAML library reads those back from the YAML it
wrote. -/
theorem readFromSecret_after_write (w : World) (ops : List (Call × Io)) {k : String} {st : Store}
    (hst : ((w.storeds batchWriteInterval ops).filter
      (·.coords = (namespaceFromKey k, secretNameFromKey k))).getLast? = some st)
    {io : Io} (hg : io.getFault = none)
    (hyaml : ∃ obj, io.yaml.unmarshal st.rawData = .ok obj ∧ obj.tracks = st.app.tracks ∧
      obj.versions.keys = st.app.versions.keys) :
    let w' := w.run batchWriteInterval ops
    (w'.readFromSecret io k).2.2 = none ∧ (w'.readFromSecret io k).2.1 = w'.heap.length ∧
      ((w'.readFromSecret io k).1.deref w'.heap.length).name = k ∧
      ((w'.readFromSecret io k).1.deref w'.heap.length).tracks = st.app.tracks ∧
      ((w'.readFromSecret io k).1.deref w'.heap.length).versions.keys = st.app.versions.keys := by
  intro w'
  obtain ⟨obj, hu, ht, hv⟩ := hyaml
  have hmem := List.mem_filter.mp (List.mem_of_getLast?_eq_some hst)
  have hc : st.coords = (namespaceFromKey k, secretNameFromKey k) := of_decide_eq_true hmem.2
  obtain ⟨secret, hsec⟩ := Option.isSome_iff_exists.mp
    (AList.lookup_isSome.mpr (hc ▸ mem_secrets_of_mem_storeds hmem.1))
  have hlook : w'.cluster.secrets.lookup (namespaceFromKey k, secretNameFromKey k) =
      some (secret.store st.rawData) := by
    simp [w', run_secrets_last_write, hsec, hst]
  have hread : w'.cluster.unmarshalSecret io k = .ok obj := by
    have hn : nameFromKey k ++ secretPostfix = secretNameFromKey k := rfl
    unfold Cluster.unmarshalSecret Cluster.get
    rw [hg, hn, hlook]
    simp [Secret.store, hu]
  rw [readFromSecret_of_ok hread]
  exact ⟨rfl, rfl, by simp, by simp [ht], by simp [hv]⟩

/-- `default/application` with a track on `v1`, the world where it was built over a cluster that
holds its secret, and a YAML library that marshals every application to `[]` and reads `[]` back
as it, with `v1` at a new address. -/
def trackedApp : Application :=
  ⟨"default/application", AList.singleton "candidate" "v1", AList.singleton "v1" 0⟩

def trackedWorld : World :=
  (init ⟨(∅ : GoMap _ _).insert ("default", "application-metrics") ⟨∅, none⟩⟩).alloc trackedApp

def trackedIo : Io :=
  ⟨⟨0, Nat.two_pow_pos 63⟩, ⟨0, Nat.two_pow_pos 63⟩,
    ⟨fun _ => .ok [], fun _ => .ok { trackedApp with versions := AList.singleton "v1" 7 }⟩,
    none, none⟩

/-- A `Write` of the application, then a `Put` of it; `readFromSecret` gives back its track and
its version's name. -/
theorem readFromSecret_after_write_put :
    let ops : List (Call × Io) := [(.write 0, trackedIo), (.put 0, trackedIo)]
    let k := "default/application"
    let w' := trackedWorld.run 0 ops
    ((trackedWorld.storeds 0 ops).filter
      (·.coords = (namespaceFromKey k, secretNameFromKey k))).getLast? = some ⟨trackedApp, []⟩ ∧
    trackedIo.getFault = none ∧
    (∃ obj, trackedIo.yaml.unmarshal [] = .ok obj ∧ obj.tracks = trackedApp.tracks ∧
      obj.versions.keys = trackedApp.versions.keys) ∧
    (w'.readFromSecret trackedIo k).2.2 = none ∧ (w'.readFromSecret trackedIo k).2.1 = w'.heap.length ∧
      ((w'.readFromSecret trackedIo k).1.deref w'.heap.length).name = k ∧
      ((w'.readFromSecret trackedIo k).1.deref w'.heap.length).tracks = trackedApp.tracks ∧
      ((w'.readFromSecret trackedIo k).1.deref w'.heap.length).versions.keys =
        trackedApp.versions.keys := by
  intro ops k w'
  have hst : ((trackedWorld.storeds 0 ops).filter
      (·.coords = (namespaceFromKey k, secretNameFromKey k))).getLast? = some ⟨trackedApp, []⟩ :=
    rfl
  have hyaml : ∃ obj, trackedIo.yaml.unmarshal [] = .ok obj ∧ obj.tracks = trackedApp.tracks ∧
      obj.versions.keys = trackedApp.versions.keys := ⟨_, rfl, rfl, rfl⟩
  exact ⟨hst, rfl, hyaml, readFromSecret_after_write trackedWorld ops hst rfl hyaml⟩

end ReadAfterWrite

namespace World

variable {w w' : World} {io : Io} {a : AppRef}

/-- **Secrets of other keys are untouched**: a `Write` of an application named `namespace/name`
changes no secret of another key of that form. -/
theorem write_keeps_other_secrets (hw : w.write io a = .ok w') {k : String}
    (h₁ : (w.deref a).name.data.count '/' = 1) (h₂ : k.data.count '/' = 1)
    (hne : k ≠ (w.deref a).name) :
    w'.cluster.secrets.lookup (namespaceFromKey k, secretNameFromKey k) =
      w.cluster.secrets.lookup (namespaceFromKey k, secretNameFromKey k) := by
  obtain ⟨-, -, -, -, rfl⟩ := write_eq_ok hw
  exact AList.lookup_insert_ne fun h => hne (eq_of_secret_eq h₂ h₁ h)

/-- The world after the `Write` of `trackedApp`. -/
def trackedWritten : World :=
  { trackedWorld with
    cluster := ⟨(∅ : GoMap _ _).insert ("default", "application-metrics")
      ⟨(∅ : GoMap _ _).insert secretKey [], none⟩⟩
    map := trackedWorld.map.record trackedApp.name trackedIo.now }

/-- Writing `default/application` keeps the secret of `default/other`. -/
theorem write_keeps_other_secrets_default :
    let k := "default/other"
    trackedWorld.write trackedIo 0 = .ok trackedWritten ∧
    (trackedWorld.deref 0).name.data.count '/' = 1 ∧
    k.data.count '/' = 1 ∧ k ≠ (trackedWorld.deref 0).name ∧
    trackedWritten.cluster.secrets.lookup (namespaceFromKey k, secretNameFromKey k) =
      trackedWorld.cluster.secrets.lookup (namespaceFromKey k, secretNameFromKey k) := by
  intro k
  have hw : trackedWorld.write trackedIo 0 = .ok trackedWritten := rfl
  have h₁ : (trackedWorld.deref 0).name.data.count '/' = 1 := by decide
  have h₂ : k.data.count '/' = 1 := by decide
  have hne : k ≠ (trackedWorld.deref 0).name := by decide
  exact ⟨hw, h₁, h₂, hne, write_keeps_other_secrets hw h₁ h₂ hne⟩

end World

end AbnStore
