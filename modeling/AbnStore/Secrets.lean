import AbnStore.Frame

/-!
# What the map leaves in the cluster's secrets

Over any sequence of calls of the map, the secrets change only through `Write`, and
`BatchedWrite` when it calls it (`applicationmap.go:170-247`): `Write` gets the secret that the
application's key names, sets `secretKey` in its `Data` (and in `StringData` unless it is `nil`)
to the YAML that `yaml.Marshal` gave for the application, and updates the secret. Every other call
only reads the cluster.

* `Store`: a `Write` that returned `nil`, as the cluster saw it: the application it marshalled and
  the YAML that `yaml.Marshal` gave, stored in the secret that the application's key names
  (`Store.coords`).
* `Call.stored`, `World.storeds`: the store a call makes (`Write`, and `BatchedWrite` when one is
  due), and those of a run of calls, in order.

Results:
* `run_secrets_last_write`: after any run of calls, a secret exists iff it existed before, and it
  holds what it held before, with `secretKey` set to the YAML of the last store into it if there
  was one. So the map creates and deletes no secret, changes no key of `Data` other than
  `secretKey`, never sets a `nil` `StringData`, stores in a secret only the YAML of an application
  whose key names it, and the last `Write` of a secret wins.
-/

namespace AbnStore

/-- Storing twice keeps the second. -/
@[simp] theorem Secret.store_store (secret : Secret) (rawData rawData' : Bytes) :
    (secret.store rawData).store rawData' = secret.store rawData' := by
  simp [Secret.store, AList.insert_insert, Option.map_map, Function.comp_def]

/-- A `Write` that returned `nil`: the application, and the YAML stored under `secretKey`. -/
structure Store where
  app : Application
  rawData : Bytes

/-- The namespace and name of the secret a store went to. -/
def Store.coords (st : Store) : String × String :=
  (namespaceFromKey st.app.name, secretNameFromKey st.app.name)

/-- `secret` after the stores `l` into it, in order. -/
def Secret.storeAll (secret : Secret) (l : List Store) : Secret :=
  l.foldl (fun secret st => secret.store st.rawData) secret

/-- After stores, a secret holds the last one's YAML. -/
theorem Secret.storeAll_eq_last (secret : Secret) (l : List Store) :
    secret.storeAll l = match l.getLast? with
      | none => secret
      | some st => secret.store st.rawData := by
  induction l generalizing secret with
  | nil => rfl
  | cons st l ih =>
    rw [Secret.storeAll, List.foldl_cons, ← Secret.storeAll, ih, List.getLast?_cons]
    cases l.getLast? <;> simp

namespace World

variable {w : World} {io : Io} {a : AppRef}

/-- What `Write` stores, when it returns `nil`. -/
def stored (w : World) (io : Io) (a : AppRef) : Option Store :=
  match w.persist io a, io.yaml.marshal (w.deref a) with
  | .ok _, .ok rawData => some ⟨w.deref a, rawData⟩
  | _, _ => none

/-- A store is of the application `Write` was called with, with the YAML that `yaml.Marshal` gave
for it, into a secret that existed. -/
theorem stored_eq_some {st : Store} (h : w.stored io a = some st) :
    st.app = w.deref a ∧ io.yaml.marshal st.app = .ok st.rawData ∧ st.coords ∈ w.cluster.secrets := by
  unfold stored at h
  split at h <;> simp only [Option.some.injEq, reduceCtorEq] at h
  subst h
  obtain ⟨_, secret, _, _, hsec, -⟩ := persist_eq_ok.mp ‹_›
  exact ⟨rfl, ‹_›, AList.lookup_isSome.mp (by simp [Store.coords, hsec])⟩

@[simp] theorem alloc_cluster (obj : Application) : (w.alloc obj).cluster = w.cluster := rfl

@[simp] theorem put_cluster : (w.put a).1.cluster = w.cluster := by
  rcases put_cases w a with ⟨_, -, h⟩ | ⟨-, h⟩ <;> rw [h]

@[simp] theorem readFromSecret_cluster (application : String) :
    (w.readFromSecret io application).1.cluster = w.cluster := by
  unfold readFromSecret
  split <;> rfl

@[simp] theorem read_cluster (application : String) :
    (w.read io application).1.cluster = w.cluster := by
  unfold read
  split <;> simp

/-- **`Write`** applies its store, if it made one, to the secret it names, and leaves the other
secrets. -/
theorem writeOrKeep_secrets (coords : String × String) :
    (w.writeOrKeep io a).1.cluster.secrets.lookup coords =
      (w.cluster.secrets.lookup coords).map
        (·.storeAll ((w.stored io a).toList.filter (·.coords = coords))) := by
  cases hp : w.persist io a with
  | error e =>
    have hw : w.write io a = .error e := by simp [write, hp]
    simp [writeOrKeep_of_error hw, stored, hp, Secret.storeAll]
  | ok cluster =>
    obtain ⟨rawData, secret, hm, -, hs, -, rfl⟩ := persist_eq_ok.mp hp
    simp only [writeOrKeep, write, stored, hp, hm, Option.toList_some]
    by_cases hc : (namespaceFromKey (w.deref a).name, secretNameFromKey (w.deref a).name) = coords
    · subst hc
      simp [hs, Store.coords, Secret.storeAll]
    · simp [AList.lookup_insert_ne (Ne.symm hc), Store.coords, hc, Secret.storeAll]

end World

/-- The store a call makes: `Write`'s, and `BatchedWrite`'s when a write is due. -/
def Call.stored (batchWriteInterval : Duration) (w : World) (io : Io) : Call → Option Store
  | .write a => w.stored io a
  | .batchedWrite a =>
    if w.map.writeDue batchWriteInterval io.checkedAt (w.deref a).name then w.stored io a else none
  | _ => none

theorem Call.stored_eq_some {batchWriteInterval : Duration} {w : World} {io : Io} {c : Call}
    {st : Store} (h : c.stored batchWriteInterval w io = some st) :
    ∃ a, w.stored io a = some st := by
  cases c <;> simp only [Call.stored, reduceCtorEq] at h
  · exact ⟨_, h⟩
  · split at h
    · exact ⟨_, h⟩
    · cases h

/-- The stores of a run of calls, in order. -/
def World.storeds (batchWriteInterval : Duration) : World → List (Call × Io) → List Store
  | _, [] => []
  | w, op :: ops =>
    (op.1.stored batchWriteInterval w op.2).toList ++
      World.storeds batchWriteInterval (w.exec batchWriteInterval op.2 op.1) ops

section Runs

variable {batchWriteInterval : Duration}

open World

/-- **One call** applies its store to the secrets. -/
theorem exec_secrets (w : World) (io : Io) (c : Call) (coords : String × String) :
    (w.exec batchWriteInterval io c).cluster.secrets.lookup coords =
      (w.cluster.secrets.lookup coords).map
        (·.storeAll (((c.stored batchWriteInterval w io).toList.filter (·.coords = coords)))) := by
  cases c with
  | write a => exact writeOrKeep_secrets coords
  | batchedWrite a =>
    simp only [exec, batchedWrite, Call.stored]
    split
    · exact writeOrKeep_secrets coords
    · simp [Secret.storeAll]
  | mutex method application =>
    simp only [exec]
    split <;> simp [Call.stored, Secret.storeAll]
  | alloc | put | get | read | readFromSecret => simp [exec, Call.stored, Secret.storeAll]

/-- A run applies its stores to the secrets, in order. -/
theorem run_secrets (w : World) (ops : List (Call × Io)) (coords : String × String) :
    (w.run batchWriteInterval ops).cluster.secrets.lookup coords =
      (w.cluster.secrets.lookup coords).map
        (·.storeAll ((w.storeds batchWriteInterval ops).filter (·.coords = coords))) := by
  induction ops generalizing w with
  | nil => simp [World.run, World.storeds, Secret.storeAll]
  | cons op ops ih =>
    rw [World.run, List.foldl_cons, ← World.run, ih, exec_secrets, Option.map_map]
    simp [World.storeds, Secret.storeAll, Function.comp_def, List.filter_append]

/-- **Last write wins.** After any run of calls, a secret exists iff it existed before, and it
holds what it held before, with `secretKey` set to the YAML of the last store into it if the run
made one. -/
theorem run_secrets_last_write (w : World) (ops : List (Call × Io)) (coords : String × String) :
    (w.run batchWriteInterval ops).cluster.secrets.lookup coords =
      (w.cluster.secrets.lookup coords).map fun secret =>
        match ((w.storeds batchWriteInterval ops).filter (·.coords = coords)).getLast? with
        | none => secret
        | some st => secret.store st.rawData := by
  rw [run_secrets]
  simp only [Secret.storeAll_eq_last]

end Runs

end AbnStore
