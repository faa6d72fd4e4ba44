import AbnStore.Locks
import Mathlib.Logic.Relation

/-!
# Goroutines calling the map

The methods of `World.lean` called concurrently, interleaved at the granularity the code gives
them, beside the lock sessions of `Locks.lean`.

* `Put` and `Get` hold `m.mutex` for their whole body, so each is one step. `Read` is `Get`, then
  on a miss `readFromSecret`, then `Put`, and other goroutines may run in between (its
  check-then-act).
* `readFromSecret`, `Write` and `BatchedWrite` hold no lock, and each of their accesses to
  `m.lastWriteTimes` is a step of its own. `readFromSecret` and `Write` end by writing it
  (`recording`). `BatchedWrite` reads it, reads it again to compare when it found a time
  (`checking`), and then calls `Write` (`writing`). The API calls and the YAML library before
  those accesses touch nothing of the map and are one step (`fetch`, `persistStep`).
* The lock methods read `m.mutexes` without `m.mutex`, while `Put` writes it holding `m.mutex`.
* Two goroutines that read and write one Go map at once, or write it both, race: the Go runtime
  may stop the process (`fatal error: concurrent map writes`), and the Go memory model promises
  nothing of the program. `Sys.Racing`: the next steps of two goroutines or sessions access one of
  `m.mutexes` and `m.lastWriteTimes`, one of them writing, and `m.mutex` does not keep them apart.
  Such a state has a step to a stopped process (`Step.race`).
* A panic (a `nil` mutex, an unlock of a mutex not held, `*nil` in `BatchedWrite`) stops the whole
  process too: no step leaves a `halted` state.
* `Sys`: the world, the goroutines, each at a `Pc` of its call, the sessions, and whether the
  process has stopped. A `Step` is a caller building an `Application` (as the tests do before
  `Put`), a goroutine calling a method with pointers to objects, one goroutine's next step
  (`advance`) with whatever the outside world answers, a new session, a session's next lock call,
  or the runtime stopping a racing process. `Reachable`: from `Sys.init`, over any cluster.
* `Sys.Inv`: the world is `Consistent`, and every goroutine's pointers are allocated, `Read`'s
  fetched object is named by its key, and an object `Get`, `Read` or `Put` returned is the entry
  of `m.apps` under its key.

Results:
* `read_put_agree`: every `Get`, `Read` or `Put` on a key `k` that has returned an object returned
  the entry of `m.apps` under `k`, the same object as every other one and as the entry at any
  earlier point of the run; and an entry, once set, is never replaced or removed.
* `apps_have_mutexes`: in every reachable state each key of `m.apps` has a mutex and points to an
  object of that name, so the four lock methods on the name of an object that `Get` or `Read`
  returned find a mutex and never dereference `nil`.

`readsRace` is the race the first result is about: two `Read`s of one key that both miss, both
build an object and both `Put`, and both return the first one.
-/

namespace AbnStore

/-- Where a goroutine is in its call. -/
inductive Pc
  /-- Called; nothing done yet. -/
  | start
  /-- `Read`: `Get` missed, `readFromSecret` is next. -/
  | fetch
  /-- `Read`: `readFromSecret` returned `a` and `err`, `Put` is next. -/
  | insert (a : AppRef) (err : Option Error)
  /-- `BatchedWrite`, which read the clock at `now`, found a write time on record; it reads
  `m.lastWriteTimes[a.Name]` again to compare. -/
  | checking (now : Time)
  /-- `BatchedWrite` calls `Write`. -/
  | writing
  /-- `now := time.Now()` and `m.lastWriteTimes[name] = &now` are next, then `next`. -/
  | recording (name : String) (next : Pc)
  /-- Returned the object `a` (`none` for `nil`) and the error `err`. -/
  | done (a : Option AppRef) (err : Option Error)
  /-- Panicked. -/
  | crashed
  deriving DecidableEq

/-- A goroutine in a call on the map. -/
structure Goroutine where
  call : Call
  pc : Pc

/-- What a caller of `Get` holds after it returns. -/
def getResult : Except Error AppRef → Pc
  | .ok a => .done (some a) none
  | .error e => .done none (some e)

/-- `readFromSecret` up to its write of `lastWriteTimes`: the new object is allocated; when the
secret unmarshalled the goroutine records the time and then goes on to `next` with the object and
no error, otherwise straight on to `next` with the error. -/
def fetch (w : World) (io : Io) (application : String) (next : AppRef → Option Error → Pc) :
    World × Pc :=
  match w.cluster.unmarshalSecret io application with
  | .error err => (w.alloc (newApplication application), next w.heap.length err)
  | .ok obj =>
    (w.alloc { obj with name := application }, .recording application (next w.heap.length none))

/-- `Write` up to its write of `lastWriteTimes`. -/
def persistStep (w : World) (io : Io) (a : AppRef) : World × Pc :=
  match w.persist io a with
  | .error e => (w, .done none (some e))
  | .ok cluster => ({ w with cluster }, .recording (w.deref a).name (.done none none))

/-- One step of a goroutine in `call` at `pc`: the world and its `Pc` after; `none` when it cannot
move (it has returned, panicked, or waits on a mutex). -/
def advance (batchWriteInterval : Duration) (w : World) (io : Io) : Call → Pc → Option (World × Pc)
  | _, .recording name next => some ({ w with map := w.map.record name io.now }, next)
  | .put a, .start => some ((w.put a).1, .done (some (w.put a).2) none)
  | .get application, .start => some (w, getResult (w.get application))
  | .read application, .start =>
    match w.get application with
    | .ok a => some (w, .done (some a) none)
    | .error _ => some (w, .fetch)
  | .read application, .fetch => some (fetch w io application .insert)
  | .read _, .insert a err => some ((w.put a).1, .done (some (w.put a).2) err)
  | .readFromSecret application, .start =>
    some (fetch w io application fun a err => .done (some a) err)
  | .write a, .start => some (persistStep w io a)
  | .batchedWrite a, .start =>
    match w.map.lastWriteTimes.lookup (w.deref a).name with
    | none => some (w, .writing)
    | some _ => some (w, .checking io.checkedAt)
  | .batchedWrite a, .checking now =>
    match w.map.lastWriteTimes.lookup (w.deref a).name with
    | some lastWrite =>
      some (w, if batchWriteInterval < now.sub lastWrite then .writing else .done none none)
    | none => some (w, .crashed)
  | .batchedWrite a, .writing => some (persistStep w io a)
  | .mutex method application, .start =>
    match method.call w.map application with
    | some (.ok m) => some ({ w with map := m }, .done none none)
    | some .waits => none
    | some .misuse => some (w, .crashed)
    | none => some (w, .crashed)
  | _, _ => none

/-! ## Races on the shared maps -/

/-- The Go maps that a method reads or writes without `m.mutex`: `m.mutexes`, which the lock
methods read while `Put` writes it, and `m.lastWriteTimes`. -/
inductive Shared
  | mutexes
  | lastWriteTimes
  deriving DecidableEq

/-- A read or a write of a shared map, made with `m.mutex` held or not. -/
structure Access where
  map : Shared
  writes : Bool
  guarded : Bool
  deriving DecidableEq

/-- Two accesses race: they are to one map, one of them writes, and `m.mutex` does not keep them
apart. -/
def Access.Conflicts (x y : Access) : Bool :=
  decide (x.map = y.map) && (x.writes || y.writes) && !(x.guarded && y.guarded)

/-- `Put`'s write of `m.mutexes`, under `m.mutex`, when the name is new. -/
def putAccess (w : World) (a : AppRef) : Option Access :=
  if (w.map.apps.lookup (w.deref a).name).isNone then some ⟨.mutexes, true, true⟩ else none

/-- The access to a shared map that a goroutine's next step makes. -/
def Goroutine.access (w : World) (g : Goroutine) : Option Access :=
  match g.call, g.pc with
  | _, .recording _ _ => some ⟨.lastWriteTimes, true, false⟩
  | .put a, .start | .read _, .insert a _ => putAccess w a
  | .mutex _ _, .start => some ⟨.mutexes, false, false⟩
  | .batchedWrite _, .start | .batchedWrite _, .checking _ => some ⟨.lastWriteTimes, false, false⟩
  | _, _ => none

/-- The access to `m.mutexes` that a session's next lock call makes. -/
def Session.access (ss : Session) : Option Access :=
  match ss.phase with
  | .start | .holding => some ⟨.mutexes, false, false⟩
  | .released | .crashed => none

/-! ## The system -/

/-- The world, the goroutines, the sessions, and whether the process has stopped. -/
structure Sys where
  world : World
  goroutines : List Goroutine
  sessions : List Session
  halted : Bool

/-- No goroutine or session yet, and the map as `init` leaves it. -/
def Sys.init (cluster : Cluster) : Sys := ⟨World.init cluster, [], [], false⟩

/-- The shared-map accesses that the goroutines' and the sessions' next steps make. -/
def Sys.accesses (s : Sys) : List Access :=
  s.goroutines.filterMap (·.access s.world) ++ s.sessions.filterMap Session.access

/-- Two next steps race on a shared map. -/
def Sys.Racing (s : Sys) : Prop := ¬ s.accesses.Pairwise fun x y => x.Conflicts y = false

instance (s : Sys) : Decidable s.Racing := inferInstanceAs (Decidable (¬ _))

/-- A call's pointer arguments address objects. -/
def Call.Valid (w : World) : Call → Prop
  | .put a | .write a | .batchedWrite a => a < w.heap.length
  | _ => True

/-- The key under which a call reads `m.apps`: `Get`'s and `Read`'s argument, `Put`'s object's
name. -/
def Call.key (w : World) : Call → Option String
  | .put a => some (w.deref a).name
  | .get application | .read application => some application
  | _ => none

/-- One step of the system; none once the process has stopped. -/
inductive Step (batchWriteInterval : Duration) : Sys → Sys → Prop
  /-- A caller builds an `Application`. -/
  | alloc (s : Sys) (obj : Application) (hl : s.halted = false) :
      Step batchWriteInterval s { s with world := s.world.alloc obj }
  /-- A new goroutine calls a method. -/
  | spawn (s : Sys) (c : Call) (hc : c.Valid s.world) (hl : s.halted = false) :
      Step batchWriteInterval s { s with goroutines := s.goroutines ++ [⟨c, .start⟩] }
  /-- Goroutine `i` takes its next step; a panic stops the process. -/
  | run (s : Sys) (i : Nat) (io : Io) (g : Goroutine) (w' : World) (pc' : Pc)
      (hl : s.halted = false) (hg : s.goroutines[i]? = some g)
      (h : advance batchWriteInterval s.world io g.call g.pc = some (w', pc')) :
      Step batchWriteInterval s
        { s with world := w', goroutines := s.goroutines.set i ⟨g.call, pc'⟩,
                 halted := decide (pc' = .crashed) }
  /-- A caller starts a session on the lock of `name`. -/
  | begin (s : Sys) (name : String) (exclusive : Bool) (hl : s.halted = false) :
      Step batchWriteInterval s { s with sessions := s.sessions ++ [⟨name, exclusive, .start⟩] }
  /-- Session `i` makes its next lock call; a panic stops the process. -/
  | lock (s : Sys) (i : Nat) (ss : Session) (w' : World) (ph : Phase) (hl : s.halted = false)
      (hs : s.sessions[i]? = some ss) (h : ss.advance s.world = some (w', ph)) :
      Step batchWriteInterval s
        { s with world := w', sessions := s.sessions.set i { ss with phase := ph },
                 halted := decide (ph = .crashed) }
  /-- Two next steps race on a shared map, and the runtime stops the process. -/
  | race (s : Sys) (hl : s.halted = false) (hr : s.Racing) :
      Step batchWriteInterval s { s with halted := true }

/-- The states reachable from the start over some cluster. -/
inductive Reachable (batchWriteInterval : Duration) : Sys → Prop
  | init (cluster : Cluster) : Reachable batchWriteInterval (Sys.init cluster)
  | step {s s' : Sys} : Reachable batchWriteInterval s → Step batchWriteInterval s s' →
      Reachable batchWriteInterval s'

/-! ## Every step grows the world -/

section Steps

variable {batchWriteInterval : Duration} {w w' : World} {io : Io} {c : Call} {pc pc' : Pc}
  {a : AppRef}

open World

theorem keepsApps_record (w : World) (name : String) (now : Time) :
    KeepsApps w { w with map := w.map.record name now } :=
  ⟨rfl, rfl, List.prefix_refl _⟩

theorem keepsApps_fetch {application : String} {next : AppRef → Option Error → Pc}
    (h : fetch w io application next = (w', pc')) : KeepsApps w w' := by
  unfold fetch at h
  split at h <;> exact (Prod.mk.inj h).1 ▸ keepsApps_alloc w _

theorem keepsApps_persistStep (h : persistStep w io a = (w', pc')) : KeepsApps w w' := by
  unfold persistStep at h
  split at h <;> rw [← (Prod.mk.inj h).1]
  · exact KeepsApps.refl w
  · exact ⟨rfl, rfl, List.prefix_refl _⟩

/-- **What one step does to the world**: it leaves the objects and the mutexes as they are
(`KeepsApps`), or it is a `Put`, or a lock method that returned. -/
theorem advance_world (h : advance batchWriteInterval w io c pc = some (w', pc')) :
    KeepsApps w w' ∨ (∃ a, w' = (w.put a).1) ∨
      ∃ method application m, c = .mutex method application ∧
        method.call w.map application = some (.ok m) ∧ w' = { w with map := m } := by
  cases pc <;> cases c <;> dsimp only [advance] at h
  case fetch.read | start.readFromSecret => exact .inl (keepsApps_fetch (Option.some.inj h))
  case start.write | writing.batchedWrite => exact .inl (keepsApps_persistStep (Option.some.inj h))
  all_goals (repeat' split at h) <;> cases h
  all_goals first
    | exact .inl (KeepsApps.refl _)
    | exact .inl (keepsApps_record _ _ _)
    | exact .inr (.inl ⟨_, rfl⟩)
    | exact .inr (.inr ⟨_, _, _, rfl, ‹_›, rfl⟩)

theorem advance_grows (h : advance batchWriteInterval w io c pc = some (w', pc')) : Grows w w' := by
  rcases advance_world h with hk | ⟨a, rfl⟩ | ⟨_, _, _, -, hm, rfl⟩
  · exact hk.grows
  · exact put_grows w a
  · exact call_grows hm

/-! ## The invariant -/

/-- What a goroutine of `call` at `pc` knows of the world: the object it holds is allocated;
`Read`'s fetched object is named by its key; what `Get`, `Read` or `Put` returned is the entry of
`m.apps` under its key. -/
def Pc.Holds (w : World) (call : Call) : Pc → Prop
  | .start | .fetch | .checking _ | .writing | .crashed | .done none _ => True
  | .insert a _ =>
    a < w.heap.length ∧ ∀ application, call = .read application → (w.deref a).name = application
  | .done (some a) _ => a < w.heap.length ∧ ∀ k, call.key w = some k → w.map.apps.lookup k = some a
  | .recording _ next => next.Holds w call

/-- A goroutine's pointers are allocated, and what it knows holds. -/
def Goroutine.Inv (w : World) (g : Goroutine) : Prop := g.call.Valid w ∧ g.pc.Holds w g.call

/-- The invariant of the system. -/
structure Sys.Inv (s : Sys) : Prop where
  consistent : s.world.Consistent
  goroutines : ∀ g ∈ s.goroutines, g.Inv s.world

theorem Call.Valid.mono (h : Grows w w') (hc : c.Valid w) : c.Valid w' := by
  cases c <;> first | trivial | exact lt_of_lt_of_le hc h.heap.length_le

theorem Call.key_mono (h : Grows w w') (hc : c.Valid w) : c.key w' = c.key w := by
  cases c <;> simp only [Call.key]
  case put a => rw [deref_of_heap_extends h.heap hc]

theorem Pc.Holds.mono (h : Grows w w') (hc : c.Valid w) {pc : Pc} (hp : pc.Holds w c) :
    pc.Holds w' c := by
  induction pc with
  | insert a _ =>
    exact ⟨lt_of_lt_of_le hp.1 h.heap.length_le, fun application e => by
      rw [deref_of_heap_extends h.heap hp.1]; exact hp.2 application e⟩
  | done a _ =>
    cases a with
    | none => trivial
    | some a =>
      exact ⟨lt_of_lt_of_le hp.1 h.heap.length_le,
        fun k e => h.apps k a (hp.2 k (by rwa [Call.key_mono h hc] at e))⟩
  | recording _ _ ih => exact ih hp
  | _ => trivial

theorem Goroutine.Inv.mono {g : Goroutine} (h : Grows w w') (hg : g.Inv w) : g.Inv w' :=
  ⟨hg.1.mono h, hg.2.mono h hg.1⟩

/-- `fetch` leaves a consistent world, and hands `next` an allocated object named by the key. -/
theorem fetch_holds (hw : w.Consistent) {application : String} {next : AppRef → Option Error → Pc}
    (h : fetch w io application next = (w', pc'))
    (hn : ∀ err, w.heap.length < w'.heap.length →
      (w'.deref w.heap.length).name = application → (next w.heap.length err).Holds w' c) :
    w'.Consistent ∧ pc'.Holds w' c := by
  refine ⟨(keepsApps_fetch h).consistent hw, ?_⟩
  unfold fetch at h
  split at h <;> obtain ⟨rfl, rfl⟩ := Prod.mk.inj h
  · exact hn _ (by simp) (by simp [newApplication])
  · exact hn _ (by simp) (by simp)

theorem persistStep_holds (hw : w.Consistent) (h : persistStep w io a = (w', pc')) :
    w'.Consistent ∧ pc'.Holds w' c := by
  refine ⟨(keepsApps_persistStep h).consistent hw, ?_⟩
  unfold persistStep at h
  split at h <;> obtain ⟨-, rfl⟩ := Prod.mk.inj h <;> trivial

/-- **The goroutine that moves** keeps the world consistent and what it knows true. -/
theorem advance_inv (hw : w.Consistent) (hc : c.Valid w) (hp : pc.Holds w c)
    (h : advance batchWriteInterval w io c pc = some (w', pc')) :
    w'.Consistent ∧ pc'.Holds w' c := by
  cases pc <;> cases c <;> dsimp only [advance] at h
  case fetch.read =>
    exact fetch_holds hw (Option.some.inj h) fun _ hl hn => ⟨hl, fun _ e => hn.trans (Call.read.inj e)⟩
  case start.readFromSecret =>
    exact fetch_holds hw (Option.some.inj h) fun _ hl _ => ⟨hl, fun k e => by simp [Call.key] at e⟩
  case start.write | writing.batchedWrite => exact persistStep_holds hw (Option.some.inj h)
  all_goals (repeat' split at h) <;> cases h
  case start.put a =>
    refine ⟨put_consistent hw hc, by simpa using put_lt hw hc, fun k e => ?_⟩
    simp only [Call.key, put_heap, deref, Option.some.injEq] at e
    exact e ▸ put_lookup w a
  case start.get application =>
    refine ⟨hw, ?_⟩
    cases hg : w.get application with
    | error e => trivial
    | ok a =>
      exact ⟨(hw.get_named hg).1, fun k e => by
        simp only [Call.key, Option.some.injEq] at e; exact e ▸ get_eq_ok.mp hg⟩
  case insert.read a err application =>
    refine ⟨put_consistent hw hp.1, by simpa using put_lt hw hp.1, fun k e => ?_⟩
    simp only [Call.key, Option.some.injEq] at e
    exact e ▸ hp.2 application rfl ▸ put_lookup w a
  -- `Read` found the key, a step that writes `m.lastWriteTimes`, and steps that keep the world
  all_goals first
    | exact ⟨hw, (hw.get_named ‹_›).1, fun k e => by
        simp only [Call.key, Option.some.injEq] at e; exact e ▸ get_eq_ok.mp ‹_›⟩
    | exact ⟨(keepsApps_record w _ io.now).consistent hw,
        hp.mono (keepsApps_record w _ io.now).grows hc⟩
    | exact ⟨call_consistent ‹_› hw, trivial⟩
    | exact ⟨hw, trivial⟩

end Steps

/-! ## Reachable states -/

section System

variable {batchWriteInterval : Duration} {s s' : Sys}

open World

theorem Step.grows (h : Step batchWriteInterval s s') : Grows s.world s'.world := by
  cases h with
  | alloc obj => exact (keepsApps_alloc s.world obj).grows
  | run i io g w' pc' hl hg h => exact advance_grows h
  | lock i ss w' ph hl hs h => exact Session.advance_grows h
  | spawn | begin | race => exact Grows.refl _

theorem set_eq_self_of_get {α : Type} {l : List α} {i : Nat} {x : α} (h : l[i]? = some x) :
    l.set i x = l :=
  List.ext_getElem? fun j => by rw [List.getElem?_set']; split <;> simp_all

/-- A step keeps every goroutine's call, and may add goroutines. -/
theorem Step.calls_prefix (h : Step batchWriteInterval s s') :
    s.goroutines.map (·.call) <+: s'.goroutines.map (·.call) := by
  cases h with
  | spawn c hc => simp
  | run i io g w' pc' hl hg h =>
    have hset : (s.goroutines.map (·.call)).set i g.call = s.goroutines.map (·.call) :=
      set_eq_self_of_get (by simp [hg])
    simp only [List.map_set, hset, List.prefix_refl]
  | alloc | begin | lock | race => exact List.prefix_refl _

theorem grows_of_reflTransGen (h : Relation.ReflTransGen (Step batchWriteInterval) s s') :
    Grows s.world s'.world := by
  induction h with
  | refl => exact Grows.refl _
  | tail _ hs ih => exact ih.trans hs.grows

theorem Sys.Inv.step (hs : s.Inv) (h : Step batchWriteInterval s s') : s'.Inv := by
  cases h with
  | alloc obj =>
    have hk := keepsApps_alloc s.world obj
    exact ⟨hk.consistent hs.consistent, fun g hg => (hs.goroutines g hg).mono hk.grows⟩
  | spawn c hc =>
    refine ⟨hs.consistent, fun g hg => ?_⟩
    rcases List.mem_append.mp hg with hg | hg
    · exact hs.goroutines g hg
    · rw [List.mem_singleton.mp hg]
      exact ⟨hc, trivial⟩
  | run i io g w' pc' hl hg h =>
    have hgi := hs.goroutines g (List.getElem?_mem hg)
    obtain ⟨hw', hp'⟩ := advance_inv hs.consistent hgi.1 hgi.2 h
    have hgrow := advance_grows h
    refine ⟨hw', fun g' hg' => ?_⟩
    rcases List.mem_or_eq_of_mem_set hg' with hg' | rfl
    · exact (hs.goroutines g' hg').mono hgrow
    · exact ⟨hgi.1.mono hgrow, hp'⟩
  | lock i ss w' ph hl hss h =>
    exact ⟨Session.advance_consistent h hs.consistent,
      fun g hg => (hs.goroutines g hg).mono (Session.advance_grows h)⟩
  | begin | race => exact ⟨hs.consistent, hs.goroutines⟩

theorem Reachable.inv (h : Reachable batchWriteInterval s) : s.Inv := by
  induction h with
  | init cluster => exact ⟨consistent_init cluster, by simp [Sys.init]⟩
  | step _ hs ih => exact ih.step hs

/-- **`Get`, `Read` and `Put` agree on one object per key.** Every one of them on the key `k` that
has returned an object returned the entry of `m.apps` under `k`, which is the entry at every
earlier point of the run where there was one (so the first one inserted); and an entry, once set,
is never replaced or removed. -/
theorem read_put_agree (hs : Reachable batchWriteInterval s) (k : String) :
    (∀ g ∈ s.goroutines, ∀ a err, g.call.key s.world = some k → g.pc = .done (some a) err →
      s.world.map.apps.lookup k = some a ∧
      ∀ s₀ p, Relation.ReflTransGen (Step batchWriteInterval) s₀ s →
        s₀.world.map.apps.lookup k = some p → p = a) ∧
    ∀ s' p, Relation.ReflTransGen (Step batchWriteInterval) s s' →
      s.world.map.apps.lookup k = some p → s'.world.map.apps.lookup k = some p := by
  refine ⟨fun g hg a err hk hp => ?_, fun s' p h hp => (grows_of_reflTransGen h).apps k p hp⟩
  have hholds := ((Reachable.inv hs).goroutines g hg).2
  rw [hp] at hholds
  have ha := hholds.2 k hk
  exact ⟨ha, fun s₀ p h₀ hp₀ =>
    Option.some.inj (((grows_of_reflTransGen h₀).apps k p hp₀).symm.trans ha)⟩

/-- Two `Read`s of `default/application` over a cluster without its secret, both returned: both
missed in `Get`, failed to read the secret and built a new application, then both called `Put`;
the second `Put` found the first one's object, and both returned it. -/
def readsRace : Sys :=
  let k := "default/application"
  let e : Error := .notFound "default" "application-metrics"
  let w : World :=
    { map := { apps := (∅ : GoMap String AppRef).insert k 0,
               mutexes := (∅ : GoMap String RWMutex).insert k {},
               lastWriteTimes := ∅ },
      heap := [newApplication k, newApplication k],
      cluster := ⟨∅⟩ }
  ⟨w, [⟨.read k, .done (some 0) (some e)⟩, ⟨.read k, .done (some 0) (some e)⟩], [], false⟩

/-- The two `Read`s interleaved: `Get`, `Get`, `readFromSecret`, `readFromSecret`, `Put`,
`Put`. -/
theorem reads_race_reachable : Reachable 0 readsRace := by
  have h₀ : Reachable 0 (Sys.init ⟨∅⟩) := .init _
  have h₁ := h₀.step (Step.spawn _ (.read "default/application") trivial rfl)
  have h₂ := h₁.step (Step.spawn _ (.read "default/application") trivial rfl)
  have h₃ := h₂.step (Step.run _ 0 default _ _ _ rfl rfl rfl)
  have h₄ := h₃.step (Step.run _ 1 default _ _ _ rfl rfl rfl)
  have h₅ := h₄.step (Step.run _ 0 default _ _ _ rfl rfl rfl)
  have h₆ := h₅.step (Step.run _ 1 default _ _ _ rfl rfl rfl)
  have h₇ := h₆.step (Step.run _ 0 default _ _ _ rfl rfl rfl)
  have h₈ := h₇.step (Step.run _ 1 default _ _ _ rfl rfl rfl)
  exact h₈

/-- The two racing `Read`s. -/
theorem read_put_agree_race :
    Reachable 0 readsRace ∧
    (∀ g ∈ readsRace.goroutines, ∀ a err,
      g.call.key readsRace.world = some "default/application" → g.pc = .done (some a) err →
      readsRace.world.map.apps.lookup "default/application" = some a ∧
      ∀ s₀ p, Relation.ReflTransGen (Step 0) s₀ readsRace →
        s₀.world.map.apps.lookup "default/application" = some p → p = a) ∧
    ∀ s' p, Relation.ReflTransGen (Step 0) readsRace s' →
      readsRace.world.map.apps.lookup "default/application" = some p →
        s'.world.map.apps.lookup "default/application" = some p :=
  ⟨reads_race_reachable, read_put_agree reads_race_reachable "default/application"⟩

/-- **Every application in the map has its mutex.** In every reachable state each key of `m.apps`
has an entry in `m.mutexes` and points to an object of that name; so on the name of an object that
`Get` or `Read` returned, `RLock`, `RUnlock`, `Lock` and `Unlock` find a mutex and never
dereference `nil`. -/
theorem apps_have_mutexes (hs : Reachable batchWriteInterval s) :
    (∀ k, k ∈ s.world.map.apps → k ∈ s.world.map.mutexes ∧
      ∃ a, s.world.map.apps.lookup k = some a ∧ (s.world.deref a).name = k) ∧
    ∀ g ∈ s.goroutines, ∀ application a err,
      (g.call = .get application ∨ g.call = .read application) → g.pc = .done (some a) err →
      (s.world.deref a).name ∈ s.world.map.mutexes ∧
      (s.world.map.rLock (s.world.deref a).name).isSome ∧
      (s.world.map.rUnlock (s.world.deref a).name).isSome ∧
      (s.world.map.lock (s.world.deref a).name).isSome ∧
      (s.world.map.unlock (s.world.deref a).name).isSome := by
  have hinv := Reachable.inv hs
  refine ⟨fun k hk => ?_, fun g hg application a err hc hp => ?_⟩
  · obtain ⟨a, ha⟩ := Option.isSome_iff_exists.mp (AList.lookup_isSome.mpr hk)
    exact ⟨(hinv.consistent.mutexes k).mp hk, a, ha, (hinv.consistent.named k a ha).2⟩
  · have hholds := (hinv.goroutines g hg).2
    rw [hp] at hholds
    have hkey : g.call.key s.world = some application := by
      rcases hc with hc | hc <;> rw [hc] <;> rfl
    obtain ⟨-, hn, hm⟩ := hinv.consistent.get_named (get_eq_ok.mpr (hholds.2 application hkey))
    rw [hn]
    exact ⟨hm, onMutex_isSome.mpr hm, onMutex_isSome.mpr hm, onMutex_isSome.mpr hm,
      onMutex_isSome.mpr hm⟩

/-- The two racing `Read`s. -/
theorem apps_have_mutexes_race :
    Reachable 0 readsRace ∧
    (∀ k, k ∈ readsRace.world.map.apps → k ∈ readsRace.world.map.mutexes ∧
      ∃ a, readsRace.world.map.apps.lookup k = some a ∧ (readsRace.world.deref a).name = k) ∧
    ∀ g ∈ readsRace.goroutines, ∀ application a err,
      (g.call = .get application ∨ g.call = .read application) → g.pc = .done (some a) err →
      (readsRace.world.deref a).name ∈ readsRace.world.map.mutexes ∧
      (readsRace.world.map.rLock (readsRace.world.deref a).name).isSome ∧
      (readsRace.world.map.rUnlock (readsRace.world.deref a).name).isSome ∧
      (readsRace.world.map.lock (readsRace.world.deref a).name).isSome ∧
      (readsRace.world.map.unlock (readsRace.world.deref a).name).isSome :=
  ⟨reads_race_reachable, apps_have_mutexes reads_race_reachable⟩

end System

end AbnStore
