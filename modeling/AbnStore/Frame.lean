import AbnStore.World

/-!
# What each method changes

One spec lemma per method of `World.lean`, which later proofs cite instead of unfolding the
method, and the two facts every method keeps.

* `put_cases`: `Put` either finds the name taken and changes nothing, or adds `a` and a new mutex
  under it. `readFromSecret_of_error` / `readFromSecret_of_ok`: `readFromSecret` allocates a new
  application named by its key, and records a time exactly when the secret unmarshals.
  `write_eq_ok`: a `nil` return of `Write` stores the marshalled application in its secret and
  records the time, nothing else; `Cluster.get_eq_ok` and `Cluster.update_eq_ok` say when the
  client's two calls succeed.
* `KeepsApps`: the world differs only in `lastWriteTimes`, the cluster and new objects. Every
  method but `Put` and the lock methods keeps it.
* `Grows`: the heap only grows, and an entry of `m.apps`, once set, is never replaced or removed.
  Every method keeps it (`put_grows`, `KeepsApps.grows`, `call_grows`).
* `Consistent`: `m.apps` and `m.mutexes` have the same keys, and every entry of `m.apps` points to
  an object named by its key. Every method keeps it, `Put` when its argument is an object
  (`put_consistent`, `KeepsApps.consistent`, `call_consistent`).
-/

namespace AbnStore

theorem Cluster.get_eq_ok {c : Cluster} {fault : Option String} {ns name : String}
    {secret : Secret} :
    c.get fault ns name = .ok secret ↔ fault = none ∧ c.secrets.lookup (ns, name) = some secret := by
  cases fault with
  | some msg => simp [Cluster.get]
  | none =>
    simp only [Cluster.get, true_and]
    split <;> simp [*]

theorem Cluster.update_eq_ok {c c' : Cluster} {fault : Option String} {ns name : String}
    {secret : Secret} :
    c.update fault ns name secret = .ok c' ↔
      fault = none ∧ c' = ⟨c.secrets.insert (ns, name) secret⟩ := by
  cases fault <;> simp [Cluster.update, eq_comm]

namespace World

variable {w w' : World} {io : Io} {a : AppRef} {application : String}

/-! ## The heap -/

@[simp] theorem alloc_map (w : World) (obj : Application) : (w.alloc obj).map = w.map := rfl

@[simp] theorem alloc_heap (w : World) (obj : Application) : (w.alloc obj).heap = w.heap ++ [obj] :=
  rfl

theorem deref_of_heap_extends (h : w.heap <+: w'.heap) (ha : a < w.heap.length) :
    w'.deref a = w.deref a := by
  obtain ⟨t, ht⟩ := h
  simp [deref, ← ht, List.getElem?_append_left ha]

@[simp] theorem deref_alloc_length (w : World) (obj : Application) :
    (w.alloc obj).deref w.heap.length = obj := by
  simp [deref, alloc, List.getElem?_concat_length]

/-! ## Spec lemmas -/

/-- **`Put`** finds the name taken and changes nothing, or adds `a` and a new mutex under it. -/
theorem put_cases (w : World) (a : AppRef) :
    (∃ current, w.map.apps.lookup (w.deref a).name = some current ∧ w.put a = (w, current)) ∨
    (w.map.apps.lookup (w.deref a).name = none ∧
      w.put a = ({ w with map := w.map.add (w.deref a).name a }, a)) := by
  unfold put
  cases w.map.apps.lookup (w.deref a).name with
  | none => exact .inr ⟨rfl, rfl⟩
  | some current => exact .inl ⟨current, rfl, rfl⟩

/-- `Put` returns what is then under the application's name. -/
theorem put_lookup (w : World) (a : AppRef) :
    (w.put a).1.map.apps.lookup (w.deref a).name = some (w.put a).2 := by
  rcases put_cases w a with ⟨c, hc, he⟩ | ⟨-, he⟩
  · simp [he, hc]
  · simp [he, ThreadSafeApplicationMap.add]

@[simp] theorem put_heap (w : World) (a : AppRef) : (w.put a).1.heap = w.heap := by
  rcases put_cases w a with ⟨c, -, he⟩ | ⟨-, he⟩ <;> simp [he]

@[simp] theorem put_lastWriteTimes (w : World) (a : AppRef) :
    (w.put a).1.map.lastWriteTimes = w.map.lastWriteTimes := by
  rcases put_cases w a with ⟨c, -, he⟩ | ⟨-, he⟩ <;> simp [he, ThreadSafeApplicationMap.add]

theorem get_eq_ok {w : World} {application : String} {a : AppRef} :
    w.get application = .ok a ↔ w.map.apps.lookup application = some a := by
  unfold get
  cases w.map.apps.lookup application <;> simp

theorem readFromSecret_of_error {err : Option Error}
    (h : w.cluster.unmarshalSecret io application = .error err) :
    w.readFromSecret io application = (w.alloc (newApplication application), w.heap.length, err) := by
  simp [readFromSecret, h]

theorem readFromSecret_of_ok {obj : Application}
    (h : w.cluster.unmarshalSecret io application = .ok obj) :
    w.readFromSecret io application =
      ({ w with map := w.map.record application io.now }.alloc { obj with name := application },
        w.heap.length, none) := by
  simp [readFromSecret, h]

/-- `readFromSecret` returns a new object named by the key. -/
theorem readFromSecret_returns (w : World) (io : Io) (application : String) :
    (w.readFromSecret io application).2.1 = w.heap.length ∧
      ((w.readFromSecret io application).1.deref w.heap.length).name = application := by
  cases h : w.cluster.unmarshalSecret io application with
  | error err => simp [readFromSecret_of_error h, newApplication]
  | ok obj =>
    rw [readFromSecret_of_ok h]
    exact ⟨rfl, deref_alloc_length { w with map := w.map.record application io.now } _ ▸ rfl⟩

theorem readFromSecret_length (w : World) (io : Io) (application : String) :
    w.heap.length < (w.readFromSecret io application).1.heap.length := by
  cases h : w.cluster.unmarshalSecret io application with
  | error err => simp [readFromSecret_of_error h]
  | ok obj => simp [readFromSecret_of_ok h, alloc]

/-- **`persist`** succeeds iff the application marshals, the API server serves its secret and
takes the update; the secret is stored back with the new `Data[secretKey]`. -/
theorem persist_eq_ok {cluster : Cluster} :
    w.persist io a = .ok cluster ↔
      ∃ rawData secret, io.yaml.marshal (w.deref a) = .ok rawData ∧ io.getFault = none ∧
        w.cluster.secrets.lookup
          (namespaceFromKey (w.deref a).name, secretNameFromKey (w.deref a).name) = some secret ∧
        io.updateFault = none ∧
        cluster = ⟨w.cluster.secrets.insert
          (namespaceFromKey (w.deref a).name, secretNameFromKey (w.deref a).name)
          (secret.store rawData)⟩ := by
  unfold persist
  dsimp only
  cases hm : io.yaml.marshal (w.deref a) with
  | error e => simp
  | ok rawData =>
    cases hg : w.cluster.get io.getFault (namespaceFromKey (w.deref a).name)
        (secretNameFromKey (w.deref a).name) with
    | error e =>
      simp only [Except.ok.injEq, reduceCtorEq, false_iff, not_exists, not_and]
      intro _ secret _ hf hs
      cases hg.symm.trans (Cluster.get_eq_ok.mpr ⟨hf, hs⟩)
    | ok secret =>
      obtain ⟨hf, hs⟩ := Cluster.get_eq_ok.mp hg
      simp [Cluster.update_eq_ok, hf, hs]

/-- **`Write`** that returns `nil` marshalled the application, found its secret, stored it back
with the new `Data[secretKey]`, and recorded the time; nothing else changes. -/
theorem write_eq_ok (h : w.write io a = .ok w') :
    ∃ rawData secret, io.yaml.marshal (w.deref a) = .ok rawData ∧
      w.cluster.secrets.lookup
        (namespaceFromKey (w.deref a).name, secretNameFromKey (w.deref a).name) = some secret ∧
      w' = { w with
        cluster := ⟨w.cluster.secrets.insert
          (namespaceFromKey (w.deref a).name, secretNameFromKey (w.deref a).name)
          (secret.store rawData)⟩
        map := w.map.record (w.deref a).name io.now } := by
  unfold write at h
  split at h
  · cases h
  rename_i cluster hp
  cases h
  obtain ⟨rawData, secret, hm, -, hs, -, rfl⟩ := persist_eq_ok.mp hp
  exact ⟨rawData, secret, hm, hs, rfl⟩

theorem write_ok (h : w.write io a = .ok w') :
    w'.map = w.map.record (w.deref a).name io.now ∧ w'.heap = w.heap := by
  obtain ⟨-, -, -, -, rfl⟩ := write_eq_ok h
  exact ⟨rfl, rfl⟩

theorem writeOrKeep_of_ok (h : w.write io a = .ok w') : w.writeOrKeep io a = (w', none) := by
  simp [writeOrKeep, h]

theorem writeOrKeep_of_error {e : Error} (h : w.write io a = .error e) :
    w.writeOrKeep io a = (w, some e) := by
  simp [writeOrKeep, h]

/-! ## Worlds that keep `m.apps` -/

/-- `w'` differs from `w` only in `lastWriteTimes`, the cluster and new objects. -/
structure KeepsApps (w w' : World) : Prop where
  apps : w'.map.apps = w.map.apps
  mutexes : w'.map.mutexes = w.map.mutexes
  heap : w.heap <+: w'.heap

theorem KeepsApps.refl (w : World) : KeepsApps w w := ⟨rfl, rfl, List.prefix_refl _⟩

theorem keepsApps_alloc (w : World) (obj : Application) : KeepsApps w (w.alloc obj) :=
  ⟨rfl, rfl, List.prefix_append _ _⟩

theorem keepsApps_readFromSecret (w : World) (io : Io) (application : String) :
    KeepsApps w (w.readFromSecret io application).1 := by
  cases h : w.cluster.unmarshalSecret io application with
  | error err => rw [readFromSecret_of_error h]; exact keepsApps_alloc w _
  | ok obj => rw [readFromSecret_of_ok h]; exact ⟨rfl, rfl, List.prefix_append _ _⟩

theorem keepsApps_writeOrKeep (w : World) (io : Io) (a : AppRef) :
    KeepsApps w (w.writeOrKeep io a).1 := by
  cases h : w.write io a with
  | error e => rw [writeOrKeep_of_error h]; exact KeepsApps.refl w
  | ok w' =>
    rw [writeOrKeep_of_ok h]
    obtain ⟨-, -, -, -, rfl⟩ := write_eq_ok h
    exact ⟨rfl, rfl, List.prefix_refl _⟩

theorem keepsApps_batchedWrite (batchWriteInterval : Duration) (w : World) (io : Io) (a : AppRef) :
    KeepsApps w (w.batchedWrite batchWriteInterval io a).1 := by
  unfold batchedWrite
  split
  · exact keepsApps_writeOrKeep w io a
  · exact KeepsApps.refl w

/-! ## `Grows` -/

/-- The heap only grows, and an entry of `m.apps` is never replaced or removed. -/
structure Grows (w w' : World) : Prop where
  heap : w.heap <+: w'.heap
  apps : ∀ k a, w.map.apps.lookup k = some a → w'.map.apps.lookup k = some a

theorem Grows.refl (w : World) : Grows w w := ⟨List.prefix_refl _, fun _ _ h => h⟩

theorem Grows.trans {w₁ w₂ w₃ : World} (h₁ : Grows w₁ w₂) (h₂ : Grows w₂ w₃) : Grows w₁ w₃ :=
  ⟨h₁.heap.trans h₂.heap, fun k a h => h₂.apps k a (h₁.apps k a h)⟩

theorem KeepsApps.grows (h : KeepsApps w w') : Grows w w' :=
  ⟨h.heap, fun k a hk => by rw [h.apps]; exact hk⟩

theorem put_grows (w : World) (a : AppRef) : Grows w (w.put a).1 := by
  rcases put_cases w a with ⟨c, -, he⟩ | ⟨hn, he⟩
  · rw [he]; exact Grows.refl w
  · rw [he]
    refine ⟨List.prefix_refl _, fun k b hk => ?_⟩
    have hne : k ≠ (w.deref a).name := fun e => by rw [e, hn] at hk; cases hk
    simpa [ThreadSafeApplicationMap.add, AList.lookup_insert_ne hne] using hk

theorem onMutex_isSome {m : ThreadSafeApplicationMap} {method : RWMutex → Outcome RWMutex} :
    (m.onMutex application method).isSome ↔ application ∈ m.mutexes := by
  simp [ThreadSafeApplicationMap.onMutex, AList.lookup_isSome]

theorem Outcome.map_eq_ok {α β : Type} {f : α → β} {o : Outcome α} {y : β} :
    o.map f = .ok y ↔ ∃ x, o = .ok x ∧ f x = y := by
  cases o <;> simp [Outcome.map]

/-- A lock method that returns changes the mutex it was called on, nothing else. -/
theorem onMutex_ok {m m' : ThreadSafeApplicationMap} {method : RWMutex → Outcome RWMutex}
    (h : m.onMutex application method = some (.ok m')) :
    application ∈ m.mutexes ∧ ∃ mu, m' = { m with mutexes := m.mutexes.insert application mu } := by
  simp only [ThreadSafeApplicationMap.onMutex, Option.map_eq_some', Outcome.map_eq_ok] at h
  obtain ⟨mu, hmu, mu', -, rfl⟩ := h
  exact ⟨AList.lookup_isSome.mp (by rw [hmu]; rfl), mu', rfl⟩

theorem call_ok {method : MutexMethod} {m m' : ThreadSafeApplicationMap}
    (h : method.call m application = some (.ok m')) :
    application ∈ m.mutexes ∧ ∃ mu, m' = { m with mutexes := m.mutexes.insert application mu } := by
  cases method <;> exact onMutex_ok h

theorem call_grows {method : MutexMethod} {m : ThreadSafeApplicationMap}
    (h : method.call w.map application = some (.ok m)) : Grows w { w with map := m } := by
  obtain ⟨-, mu, rfl⟩ := call_ok h
  exact ⟨List.prefix_refl _, fun _ _ hk => hk⟩

/-- **Every call**, run start to finish, grows the world. -/
theorem exec_grows (batchWriteInterval : Duration) (w : World) (io : Io) :
    ∀ c, Grows w (w.exec batchWriteInterval io c)
  | .alloc obj => (keepsApps_alloc w obj).grows
  | .put a => put_grows w a
  | .get _ => Grows.refl w
  | .read application => by
    simp only [exec, World.read]
    split
    · exact Grows.refl w
    · exact (keepsApps_readFromSecret w io application).grows.trans (put_grows _ _)
  | .readFromSecret application => (keepsApps_readFromSecret w io application).grows
  | .write a => (keepsApps_writeOrKeep w io a).grows
  | .batchedWrite a => (keepsApps_batchedWrite _ w io a).grows
  | .mutex method application => by
    simp only [exec]
    split
    · exact call_grows ‹_›
    · exact Grows.refl w

/-! ## `Consistent` -/

/-- `m.apps` and `m.mutexes` have the same keys, and every entry of `m.apps` points to an object
named by its key. -/
structure Consistent (w : World) : Prop where
  mutexes : ∀ k, k ∈ w.map.apps ↔ k ∈ w.map.mutexes
  named : ∀ k a, w.map.apps.lookup k = some a → a < w.heap.length ∧ (w.deref a).name = k

theorem consistent_init (cluster : Cluster) : Consistent (init cluster) :=
  ⟨fun k => by simp [init, ThreadSafeApplicationMap.empty], fun k a h => by
    simp [init, ThreadSafeApplicationMap.empty] at h⟩

/-- Objects named by their keys stay so when the heap grows. -/
theorem Consistent.transfer (h : Consistent w) (happs : w'.map.apps = w.map.apps)
    (hmutexes : ∀ k, k ∈ w'.map.mutexes ↔ k ∈ w.map.mutexes) (hheap : w.heap <+: w'.heap) :
    Consistent w' := by
  refine ⟨fun k => by rw [happs, hmutexes]; exact h.mutexes k, fun k a hk => ?_⟩
  rw [happs] at hk
  obtain ⟨hlt, hname⟩ := h.named k a hk
  exact ⟨lt_of_lt_of_le hlt hheap.length_le, by rw [deref_of_heap_extends hheap hlt, hname]⟩

theorem KeepsApps.consistent (h : KeepsApps w w') (hw : Consistent w) : Consistent w' :=
  hw.transfer h.apps (fun k => by rw [h.mutexes]) h.heap

theorem call_consistent {method : MutexMethod} {m : ThreadSafeApplicationMap}
    (h : method.call w.map application = some (.ok m)) (hw : Consistent w) :
    Consistent { w with map := m } := by
  obtain ⟨hm, mu, rfl⟩ := call_ok h
  exact hw.transfer rfl (fun k => by rw [AList.mem_insert]; exact ⟨fun h => h.elim (· ▸ hm) id, .inr⟩)
    (List.prefix_refl _)

theorem put_consistent (hw : Consistent w) (ha : a < w.heap.length) : Consistent (w.put a).1 := by
  rcases put_cases w a with ⟨c, -, he⟩ | ⟨-, he⟩
  · rw [he]; exact hw
  · rw [he]
    refine ⟨fun k => ?_, fun k b hk => ?_⟩
    · simp only [ThreadSafeApplicationMap.add, AList.mem_insert, hw.mutexes k]
    · by_cases hkn : k = (w.deref a).name
      · subst hkn
        simp only [ThreadSafeApplicationMap.add, AList.lookup_insert, Option.some.injEq] at hk
        exact hk ▸ ⟨ha, rfl⟩
      · simp only [ThreadSafeApplicationMap.add, AList.lookup_insert_ne hkn] at hk
        exact hw.named k b hk

/-- What `Put` returns is an object. -/
theorem put_lt (hw : Consistent w) (ha : a < w.heap.length) : (w.put a).2 < w.heap.length := by
  rcases put_cases w a with ⟨c, hc, he⟩ | ⟨-, he⟩
  · rw [he]; exact (hw.named _ _ hc).1
  · rw [he]; exact ha

/-- What `Get` returns is an object named by the key. -/
theorem Consistent.get_named (hw : Consistent w) (h : w.get application = .ok a) :
    a < w.heap.length ∧ (w.deref a).name = application ∧ application ∈ w.map.mutexes := by
  have hk := get_eq_ok.mp h
  exact ⟨(hw.named _ _ hk).1, (hw.named _ _ hk).2,
    (hw.mutexes _).mp (AList.lookup_isSome.mp (by rw [hk]; rfl))⟩

end World

end AbnStore
