import AbnStore.Goroutines

/-!
# The locks exclude each other over any interleaving

The system of `Goroutines.lean`: goroutines call `Put`, `Get`, `Read`, `readFromSecret`, `Write`
and `BatchedWrite`, each access to a shared map a step of its own, while sessions
(`Locks.lean`) take the lock on a name and release it; a race or a panic stops the process. Every
lock call is made by a session, as in `testWriteMetric` (`grpc_service_test.go:127-133`).

* A goroutine's step in a call other than the four lock methods leaves the mutexes as they are or
  adds fresh ones (`advance_freshMutexes`): only `Put` adds one, under a name without an
  application, hence without a mutex, and it never replaces a mutex that a session holds.
* So in every reachable state whose goroutines make no lock call every mutex is accounted for
  (`Reachable.accounted`), whatever the interleaving.

Results:
* `sessions_exclusive`: in every such state, per name, at most one session holds the write lock
  and none holds the read lock while one does; and as long as the process runs, a session holding
  a lock has a step that releases it without the fatal unlock of an unlocked mutex and without a
  `nil` mutex. The process may also stop first: a `Put` of a new name that writes `m.mutexes`
  while the session is about to read it races, and `Step.race` stops the process there.

Out of scope: the writer preference of `sync.RWMutex` (a pending `Lock` makes new `RLock`s
wait), which only makes lock calls wait more often; liveness.
-/

namespace AbnStore

section Sessions

variable {batchWriteInterval : Duration} {s s' : Sys} {w w' : World} {io : Io} {c : Call}
  {pc pc' : Pc}

open World

/-- A goroutine's step in any call but the lock methods only adds fresh mutexes. -/
theorem advance_freshMutexes (hw : Consistent w) (hl : c.isLock = false)
    (h : advance batchWriteInterval w io c pc = some (w', pc')) : FreshMutexes w w' := by
  rcases advance_world h with hk | ⟨a, rfl⟩ | ⟨_, _, _, rfl, -, -⟩
  · exact hk.freshMutexes
  · exact put_freshMutexes hw a
  · cases hl

/-- Goroutines are never removed and keep their calls, so a state whose goroutines make no lock
call comes from one whose goroutines make none. -/
theorem Step.noLock (h : Step batchWriteInterval s s')
    (hl : ∀ g ∈ s'.goroutines, g.call.isLock = false) : ∀ g ∈ s.goroutines, g.call.isLock = false :=
  fun g hg => by
    obtain ⟨g', hg', he⟩ := List.mem_map.mp (h.calls_prefix.subset (List.mem_map_of_mem _ hg))
    exact he ▸ hl g' hg'

/-- **One step** keeps the mutexes accounted for, when no goroutine makes a lock call. -/
theorem Accounted.step (ha : Accounted s.sessions s.world.map) (hw : s.world.Consistent)
    (hl : ∀ g ∈ s.goroutines, g.call.isLock = false) (h : Step batchWriteInterval s s') :
    Accounted s'.sessions s'.world.map := by
  cases h with
  | alloc obj => exact ha.fresh (keepsApps_alloc s.world obj).freshMutexes
  | run i io g w' pc' _ hg h =>
    exact ha.fresh (advance_freshMutexes hw (hl g (List.getElem?_mem hg)) h)
  | begin name exclusive => exact ha.begin name exclusive
  | lock i ss w' ph _ hs h => exact ha.advance hs h
  | spawn | race => exact ha

theorem Reachable.accounted (h : Reachable batchWriteInterval s)
    (hl : ∀ g ∈ s.goroutines, g.call.isLock = false) : Accounted s.sessions s.world.map := by
  induction h with
  | init cluster => exact accounted_empty
  | step hr hs ih =>
    have hl' := hs.noLock hl
    exact (ih hl').step hr.inv.consistent hl' hs

/-- **The locks exclude each other.** In every reachable state whose goroutines make no lock call,
for every name at most one session holds the write lock, and none holds the read lock while one
does; and while the process runs, a session holding a lock has a step that releases it and does
not stop the process. -/
theorem sessions_exclusive (hs : Reachable batchWriteInterval s)
    (hl : ∀ g ∈ s.goroutines, g.call.isLock = false) :
    (∀ name, holders s.sessions name true ≤ 1 ∧
      (holders s.sessions name true = 1 → holders s.sessions name false = 0)) ∧
    ∀ i ss, s.sessions[i]? = some ss → ss.phase = .holding → s.halted = false →
      ∃ s', Step batchWriteInterval s s' ∧ s'.halted = false ∧
        s'.sessions = s.sessions.set i { ss with phase := .released } := by
  have ha := hs.accounted hl
  refine ⟨fun name => ?_, fun i ss hi hph hh => ?_⟩
  · rw [(ha name).writers, (ha name).readers]
    cases hmu : s.world.map.mutexes.lookup name with
    | none => simp [writersOf]
    | some mu =>
      cases hw : mu.writer
      · simp [writersOf, hw]
      · simp [writersOf, readersOf, hw, (ha name).single mu hmu hw]
  · obtain ⟨m, hm⟩ := ha.release_ok (List.getElem?_mem hi) hph
    have hadv : ss.advance s.world = some ({ s.world with map := m }, .released) := by
      simp [Session.advance, hph, Session.onCall, hm]
    exact ⟨_, Step.lock s i ss _ _ hh hi hadv, rfl, rfl⟩

/-- A `Put` of `default/application`; then a reader takes its lock and releases it, and a writer
takes it. -/
def handover : Sys :=
  let k := "default/application"
  ⟨{ map := { apps := (∅ : GoMap String AppRef).insert k 0,
              mutexes := (∅ : GoMap String RWMutex).insert k { writer := true },
              lastWriteTimes := ∅ },
     heap := [newApplication k],
     cluster := ⟨∅⟩ },
   [⟨.put 0, .done (some 0) none⟩], [⟨k, false, .released⟩, ⟨k, true, .holding⟩], false⟩

theorem handover_reachable : Reachable 0 handover := by
  have h₀ : Reachable 0 (Sys.init ⟨∅⟩) := .init _
  have h₁ := h₀.step (Step.alloc _ (newApplication "default/application") rfl)
  have h₂ := h₁.step (Step.spawn _ (.put 0) Nat.zero_lt_one rfl)
  have h₃ := h₂.step (Step.run _ 0 default _ _ _ rfl rfl rfl)
  have h₄ := h₃.step (Step.begin _ "default/application" false rfl)
  have h₅ := h₄.step (Step.lock _ 0 _ _ _ rfl rfl rfl)
  have h₆ := h₅.step (Step.lock _ 0 _ _ _ rfl rfl rfl)
  have h₇ := h₆.step (Step.begin _ "default/application" true rfl)
  have h₈ := h₇.step (Step.lock _ 1 _ _ _ rfl rfl rfl)
  exact h₈

/-- The handover: the writer holds the lock alone, and can release it. -/
theorem sessions_exclusive_handover :
    Reachable 0 handover ∧ (∀ g ∈ handover.goroutines, g.call.isLock = false) ∧
    (∀ name, holders handover.sessions name true ≤ 1 ∧
      (holders handover.sessions name true = 1 → holders handover.sessions name false = 0)) ∧
    ∀ i ss, handover.sessions[i]? = some ss → ss.phase = .holding → handover.halted = false →
      ∃ s', Step 0 handover s' ∧ s'.halted = false ∧
        s'.sessions = handover.sessions.set i { ss with phase := .released } := by
  have hl : ∀ g ∈ handover.goroutines, g.call.isLock = false := by
    simp [handover, Call.isLock]
  exact ⟨handover_reachable, hl, sessions_exclusive handover_reachable hl⟩

end Sessions

end AbnStore
