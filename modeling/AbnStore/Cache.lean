import AbnStore.Frame

/-!
# The map as a cache of the secrets

`Read` (`applicationmap.go:113-127`) serves the in-memory application of a key, and reads the
secret only on a miss, caching what `readFromSecret` returns with `Put`, whether it read the
secret or built a `NewApplication` because it could not. `Put` never replaces an entry of
`m.apps` (`Grows`), so the first answer stays.

Results:
* `read_cached`: once a `Read` of a key has returned an application, every later `Read` of that
  key, after any calls and whatever the cluster then holds or answers, returns the same
  application with no error and changes nothing.
* `read_failure_overwrites_secret`: a `Read` of a key neither in memory nor written before,
  whose secret could not be read (the API server failed the request or has no such secret, the
  secret lacks `secretKey`, or its YAML does not unmarshal), returns an empty application, and a
  `BatchedWrite` of it is due at every time; when the secret exists and the API server then
  serves it, that `BatchedWrite` replaces the application stored there by the YAML of the empty
  one.
-/

namespace AbnStore

namespace World

variable {batchWriteInterval : Duration} {w : World} {io : Io} {k : String} {a : AppRef}

/-- A run of calls grows the world. -/
theorem run_grows (w : World) (ops : List (Call × Io)) : Grows w (w.run batchWriteInterval ops) := by
  induction ops generalizing w with
  | nil => exact Grows.refl w
  | cons op ops ih => exact (exec_grows _ w op.2 op.1).trans (ih _)

/-- A `Read` of a key in memory returns its application and changes nothing. -/
theorem read_of_lookup (h : w.map.apps.lookup k = some a) : w.read io k = (w, a, none) := by
  simp [read, get_eq_ok.mpr h]

/-- `Read` leaves under the key the application it returns. -/
theorem read_lookup (w : World) (io : Io) (k : String) :
    (w.read io k).1.map.apps.lookup k = some (w.read io k).2.1 := by
  cases hg : w.get k with
  | ok a => simpa [read, hg] using get_eq_ok.mp hg
  | error e =>
    obtain ⟨h₁, h₂⟩ := readFromSecret_returns w io k
    have hl := put_lookup (w.readFromSecret io k).1 (w.readFromSecret io k).2.1
    rw [h₁, h₂] at hl
    simpa [read, hg, h₁] using hl

/-- **`Read` never refreshes.** After a `Read` of `k` and any calls, a `Read` of `k` returns what
the first one did, with no error, and changes nothing. -/
theorem read_cached (w : World) (io : Io) (k : String) (ops : List (Call × Io)) (io' : Io) :
    ((w.read io k).1.run batchWriteInterval ops).read io' k =
      ((w.read io k).1.run batchWriteInterval ops, (w.read io k).2.1, none) :=
  read_of_lookup ((run_grows _ ops).apps k _ (read_lookup w io k))

/-- A `Read` of a key not in memory whose secret could not be read caches and returns a new,
empty application, with `readFromSecret`'s error. -/
theorem read_of_unmarshalSecret_error (hk : w.map.apps.lookup k = none) {err : Option Error}
    (hu : w.cluster.unmarshalSecret io k = .error err) :
    w.read io k =
      (⟨w.map.add k w.heap.length, w.heap ++ [newApplication k], w.cluster⟩, w.heap.length, err) := by
  have hn : ((w.alloc (newApplication k)).deref w.heap.length).name = k := by
    rw [deref_alloc_length]; rfl
  have hp : (w.alloc (newApplication k)).put w.heap.length =
      (⟨w.map.add k w.heap.length, w.heap ++ [newApplication k], w.cluster⟩, w.heap.length) := by
    rcases put_cases (w.alloc (newApplication k)) w.heap.length with ⟨c, hc, -⟩ | ⟨-, he⟩
    · rw [hn, alloc_map, hk] at hc; cases hc
    · rw [he, hn]; rfl
  have hg : w.get k = .error (.notInMemory k) := by simp [get, hk]
  simp only [read, hg, readFromSecret_of_error hu, hp]

/-- **A failed read destroys the stored application.** A `Read` of a key neither in memory nor
written before, whose secret could not be read, returns an empty application with
`readFromSecret`'s error, and a `BatchedWrite` of it is due at every time; when the key's secret
exists and the YAML library and the API server do not fail, that `BatchedWrite` stores the empty
application's YAML in it. -/
theorem read_failure_overwrites_secret (hk : w.map.apps.lookup k = none)
    (ht : w.map.lastWriteTimes.lookup k = none) {err : Option Error}
    (hu : w.cluster.unmarshalSecret io k = .error err) :
    (w.read io k).2.2 = err ∧ (w.read io k).1.deref (w.read io k).2.1 = newApplication k ∧
    (∀ now, (w.read io k).1.map.writeDue batchWriteInterval now k = true) ∧
    ∀ (secret : Secret) (io₂ : Io) (rawData : Bytes),
      w.cluster.secrets.lookup (namespaceFromKey k, secretNameFromKey k) = some secret →
      io₂.yaml.marshal (newApplication k) = .ok rawData → io₂.getFault = none →
      io₂.updateFault = none →
      ((w.read io k).1.batchedWrite batchWriteInterval io₂ (w.read io k).2.1).1.cluster.secrets.lookup
        (namespaceFromKey k, secretNameFromKey k) = some (secret.store rawData) := by
  rw [read_of_unmarshalSecret_error hk hu]
  have hd : World.deref ⟨w.map.add k w.heap.length, w.heap ++ [newApplication k], w.cluster⟩
      w.heap.length = newApplication k := deref_alloc_length w _
  have hdue : ∀ now, (w.map.add k w.heap.length).writeDue batchWriteInterval now k = true := by
    simp [ThreadSafeApplicationMap.writeDue, ThreadSafeApplicationMap.add, ht]
  refine ⟨rfl, hd, hdue, fun secret io₂ rawData hs hm hg hup => ?_⟩
  have hn : (newApplication k).name = k := rfl
  simp only [batchedWrite, writeOrKeep, write, persist]
  rw [hd, hn, hdue, if_pos rfl, hm]
  simp [Cluster.get, Cluster.update, hg, hup, hs]

/-- The API server fails the first `Get` of the secret of `default/application`, which holds
`[1]`; the `BatchedWrite` that follows stores `[]`, the YAML of the empty application, there. -/
theorem read_failure_overwrites_secret_timeout :
    let t : Time := ⟨0, Nat.two_pow_pos 63⟩
    let k := "default/application"
    let secret : Secret := ⟨(∅ : GoMap _ _).insert secretKey [1], none⟩
    let w := init ⟨(∅ : GoMap _ _).insert (namespaceFromKey k, secretNameFromKey k) secret⟩
    let io : Io := ⟨t, t, ⟨fun _ => .ok [], fun _ => .error "no YAML"⟩, some "timeout", none⟩
    let io₂ : Io := ⟨t, t, ⟨fun _ => .ok [], fun _ => .error "no YAML"⟩, none, none⟩
    w.map.apps.lookup k = none ∧ w.map.lastWriteTimes.lookup k = none ∧
    w.cluster.unmarshalSecret io k = .error (some (.client "timeout")) ∧
    w.cluster.secrets.lookup (namespaceFromKey k, secretNameFromKey k) = some secret ∧
    io₂.yaml.marshal (newApplication k) = .ok [] ∧ io₂.getFault = none ∧ io₂.updateFault = none ∧
    (w.read io k).2.2 = some (.client "timeout") ∧
    (w.read io k).1.deref (w.read io k).2.1 = newApplication k ∧
    (∀ now, (w.read io k).1.map.writeDue 0 now k = true) ∧
    ((w.read io k).1.batchedWrite 0 io₂ (w.read io k).2.1).1.cluster.secrets.lookup
      (namespaceFromKey k, secretNameFromKey k) = some (secret.store []) := by
  intro t k secret w io io₂
  have hk : w.map.apps.lookup k = none := rfl
  have ht : w.map.lastWriteTimes.lookup k = none := rfl
  have hu : w.cluster.unmarshalSecret io k = .error (some (.client "timeout")) := rfl
  have hs : w.cluster.secrets.lookup (namespaceFromKey k, secretNameFromKey k) = some secret :=
    AList.lookup_insert _
  have hm : io₂.yaml.marshal (newApplication k) = .ok [] := rfl
  obtain ⟨he, hd, hdue, hover⟩ := @read_failure_overwrites_secret 0 _ _ _ hk ht _ hu
  exact ⟨hk, ht, hu, hs, hm, rfl, rfl, he, hd, hdue, hover secret io₂ [] hs hm rfl rfl⟩

end World

end AbnStore
