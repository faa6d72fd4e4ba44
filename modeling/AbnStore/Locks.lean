import AbnStore.Frame

/-!
# The per-application locks and the callers that hold them

Model of the per-application locks as their callers use them (`RLock`, `RUnlock`, `Lock`,
`Unlock`, `applicationmap.go:64-82`): take the lock on an application's name, work on the
application, release it, as `testWriteMetric` does with `RLock(a.Name)` and `RUnlock(a.Name)`
(`grpc_service_test.go:127-133`). `Goroutines.lean` runs such sessions beside the goroutines.

* `Session`: one caller's use of the lock on `name`, for reading (`RLock` then `RUnlock`) or for
  writing (`Lock` then `Unlock`), at a `Phase`. A lock call on a name without a mutex panics on
  the `nil` pointer, as does an unlock of a mutex not held (`crashed`); one that `RWMutex`
  blocks does not move.
* `Accounted l m`: each mutex of `m` accounts for the sessions `l` that hold it: its reader count is
  the number of sessions holding it for reading, its writer flag says whether one holds it for
  writing (`holders`), and it never has both.
* `FreshMutexes w w'`: `w'` has the mutexes of `w`, and maybe fresh ones under names that had
  none. `Put` on a consistent world does that (`put_freshMutexes`): it never replaces a mutex that
  a session holds.

Results:
* `Accounted.advance`: a session's lock call keeps every mutex accounted for, and
  `Accounted.fresh` says the same of fresh mutexes. `Accounted.release_ok`: a session holding a
  lock finds its mutex held as it holds it, so its unlock returns.
-/

namespace AbnStore

/-- Whether a call is one of the four lock methods. -/
def Call.isLock : Call → Bool
  | .mutex _ _ => true
  | _ => false

/-- Where a session is. -/
inductive Phase
  /-- Its lock call is next. -/
  | start
  /-- Holds the lock; its unlock call is next. -/
  | holding
  /-- Has released the lock. -/
  | released
  /-- Panicked in a lock call. -/
  | crashed
  deriving DecidableEq

/-- A caller's use of the lock on `name`: for writing when `exclusive`, else for reading. -/
structure Session where
  name : String
  exclusive : Bool
  phase : Phase
  deriving DecidableEq

namespace Session

/-- `Lock`, or `RLock`. -/
def acquire (ss : Session) : MutexMethod := if ss.exclusive then .lock else .rLock

/-- `Unlock`, or `RUnlock`. -/
def release (ss : Session) : MutexMethod := if ss.exclusive then .unlock else .rUnlock

/-- A lock call that returns leaves the map `m` and moves the session to `next`; one that blocks
does not move; one that finds no mutex, or unlocks one not held, panics. -/
def onCall (w : World) (next : Phase) :
    Option (Outcome ThreadSafeApplicationMap) → Option (World × Phase)
  | some (.ok m) => some ({ w with map := m }, next)
  | some .waits => none
  | _ => some (w, .crashed)

/-- The session's next lock call: the world and its phase after. -/
def advance (w : World) (ss : Session) : Option (World × Phase) :=
  match ss.phase with
  | .start => onCall w .holding (ss.acquire.call w.map ss.name)
  | .holding => onCall w .released (ss.release.call w.map ss.name)
  | .released | .crashed => none

/-- The session holds the lock on `name`, for writing when `exclusive`. -/
def Holds (ss : Session) (name : String) (exclusive : Bool) : Bool :=
  ss.name = name ∧ ss.exclusive = exclusive ∧ ss.phase = .holding

end Session

/-- The number of sessions holding the lock on `name`, for writing when `exclusive`. -/
def holders (ss : List Session) (name : String) (exclusive : Bool) : Nat :=
  ss.countP (·.Holds name exclusive)

/-- The readers a mutex counts; none without a mutex. -/
def readersOf : Option RWMutex → Nat
  | some mu => mu.readers
  | none => 0

/-- The writers a mutex counts; none without a mutex. -/
def writersOf : Option RWMutex → Nat
  | some mu => if mu.writer then 1 else 0
  | none => 0

/-- The mutex `o` of `name` accounts for the sessions that hold its lock: it counts the readers,
it is write-held iff a session holds it for writing, and never both at once. -/
structure Accounts (ss : List Session) (name : String) (o : Option RWMutex) : Prop where
  readers : holders ss name false = readersOf o
  writers : holders ss name true = writersOf o
  single : ∀ mu, o = some mu → mu.writer = true → mu.readers = 0

/-- Every mutex of `m` accounts for the sessions `l` that hold its lock. -/
def Accounted (l : List Session) (m : ThreadSafeApplicationMap) : Prop :=
  ∀ name, Accounts l name (m.mutexes.lookup name)

/-! ## The four lock methods -/

section Mutex

variable {m m' : ThreadSafeApplicationMap} {name : String}

open World

theorem onMutex_eq_ok {method : RWMutex → Outcome RWMutex} :
    m.onMutex name method = some (.ok m') ↔
      ∃ mu, m.mutexes.lookup name = some mu ∧ ∃ mu', method mu = .ok mu' ∧
        { m with mutexes := m.mutexes.insert name mu' } = m' := by
  simp only [ThreadSafeApplicationMap.onMutex, Option.map_eq_some', Outcome.map_eq_ok]

theorem rLock_eq_ok : m.rLock name = some (.ok m') ↔ ∃ mu, m.mutexes.lookup name = some mu ∧
    mu.writer = false ∧
    { m with mutexes := m.mutexes.insert name { mu with readers := mu.readers + 1 } } = m' := by
  simp [ThreadSafeApplicationMap.rLock, onMutex_eq_ok, RWMutex.rLock, ite_eq_iff, and_assoc]

theorem lock_eq_ok : m.lock name = some (.ok m') ↔ ∃ mu, m.mutexes.lookup name = some mu ∧
    mu.writer = false ∧ mu.readers = 0 ∧
    { m with mutexes := m.mutexes.insert name { mu with writer := true } } = m' := by
  simp [ThreadSafeApplicationMap.lock, onMutex_eq_ok, RWMutex.lock, ite_eq_iff, and_assoc]

theorem rUnlock_eq_ok : m.rUnlock name = some (.ok m') ↔ ∃ mu, m.mutexes.lookup name = some mu ∧
    mu.readers ≠ 0 ∧
    { m with mutexes := m.mutexes.insert name { mu with readers := mu.readers - 1 } } = m' := by
  simp [ThreadSafeApplicationMap.rUnlock, onMutex_eq_ok, RWMutex.rUnlock, ite_eq_iff, and_assoc]

theorem unlock_eq_ok : m.unlock name = some (.ok m') ↔ ∃ mu, m.mutexes.lookup name = some mu ∧
    mu.writer = true ∧
    { m with mutexes := m.mutexes.insert name { mu with writer := false } } = m' := by
  simp [ThreadSafeApplicationMap.unlock, onMutex_eq_ok, RWMutex.unlock, ite_eq_iff, and_assoc]

end Mutex

/-! ## Counting the holders -/

section Count

variable {l : List Session} {name : String}

@[simp] theorem Session.holds_iff {ss : Session} {exclusive : Bool} :
    ss.Holds name exclusive = true ↔
      ss.name = name ∧ ss.exclusive = exclusive ∧ ss.phase = .holding := by
  simp [Session.Holds]

/-- A session holding a lock is counted. -/
theorem holders_pos {ss : Session} (hss : ss ∈ l) (hph : ss.phase = .holding) :
    0 < holders l ss.name ss.exclusive :=
  List.countP_pos_iff.mpr ⟨ss, hss, by simp [hph]⟩

/-- A new session holds nothing yet. -/
theorem holders_begin (name' : String) (exclusive' exclusive : Bool) :
    holders (l ++ [⟨name', exclusive', .start⟩]) name exclusive = holders l name exclusive := by
  simp [holders, List.countP_append]

/-- Moving session `i` to `ph` changes the count by what its own holding changes. -/
theorem holders_set {i : Nat} {ss : Session} (hs : l[i]? = some ss) (ph : Phase)
    (name : String) (exclusive : Bool) :
    holders (l.set i { ss with phase := ph }) name exclusive +
        (if ss.Holds name exclusive then 1 else 0) =
      holders l name exclusive + (if ({ ss with phase := ph } : Session).Holds name exclusive
        then 1 else 0) := by
  obtain ⟨hi, rfl⟩ := List.getElem?_eq_some_iff.mp hs
  unfold holders
  rw [List.countP_set _ _ _ _ hi]
  have hle : (if l[i].Holds name exclusive then 1 else 0) ≤ l.countP (·.Holds name exclusive) := by
    split
    · exact List.countP_pos_iff.mpr ⟨_, List.getElem_mem hi, ‹_›⟩
    · exact Nat.zero_le _
  omega

theorem Accounts.congr {l' : List Session} {o : Option RWMutex}
    (h : ∀ exclusive, holders l' name exclusive = holders l name exclusive)
    (ha : Accounts l name o) : Accounts l' name o :=
  ⟨(h false).trans ha.readers, (h true).trans ha.writers, ha.single⟩

/-- A fresh mutex accounts for a name that had none. -/
theorem Accounts.fresh (ha : Accounts l name none) : Accounts l name (some {}) :=
  ⟨ha.readers, ha.writers, fun _ h hw => by cases h; cases hw⟩

/-! The four ways a lock call that returns changes the account of its name. -/

variable {l' : List Session} {mu : RWMutex}

theorem Accounts.rLock (ha : Accounts l name (some mu)) (hw : mu.writer = false)
    (hr : holders l' name false = holders l name false + 1)
    (ht : holders l' name true = holders l name true) :
    Accounts l' name (some { mu with readers := mu.readers + 1 }) :=
  ⟨by rw [hr, ha.readers]; rfl, by rw [ht, ha.writers]; simp [writersOf, hw],
    fun _ h h' => by cases h; simp [hw] at h'⟩

theorem Accounts.lock (ha : Accounts l name (some mu)) (hw : mu.writer = false)
    (h0 : mu.readers = 0) (hr : holders l' name false = holders l name false)
    (ht : holders l' name true = holders l name true + 1) :
    Accounts l' name (some { mu with writer := true }) := by
  have hw0 : holders l name true = 0 := by rw [ha.writers]; simp [writersOf, hw]
  exact ⟨by rw [hr, ha.readers]; rfl, by rw [ht, hw0]; rfl, fun _ h _ => by cases h; exact h0⟩

theorem Accounts.rUnlock (ha : Accounts l name (some mu))
    (hr : holders l' name false + 1 = holders l name false)
    (ht : holders l' name true = holders l name true) :
    Accounts l' name (some { mu with readers := mu.readers - 1 }) := by
  have := ha.readers
  refine ⟨by simp only [readersOf] at this ⊢; omega, by rw [ht, ha.writers]; rfl,
    fun _ h h' => ?_⟩
  cases h
  simp [ha.single mu rfl h']

theorem Accounts.unlock (ha : Accounts l name (some mu)) (hw : mu.writer = true)
    (hr : holders l' name false = holders l name false)
    (ht : holders l' name true + 1 = holders l name true) :
    Accounts l' name (some { mu with writer := false }) := by
  have := ha.writers
  simp only [writersOf, hw, if_true] at this
  exact ⟨by rw [hr, ha.readers]; rfl, by simp [writersOf]; omega, fun _ h h' => by cases h; cases h'⟩

/-! A session's own lock call that returns keeps its name accounted for. -/

variable {i : Nat} {ss : Session} {m m' : ThreadSafeApplicationMap}

theorem Accounts.acquire (hs : l[i]? = some ss) (hph : ss.phase = .start)
    (ha : Accounts l ss.name (m.mutexes.lookup ss.name))
    (hc : ss.acquire.call m ss.name = some (.ok m')) :
    Accounts (l.set i { ss with phase := .holding }) ss.name (m'.mutexes.lookup ss.name) := by
  have hf := holders_set hs .holding ss.name false
  have ht := holders_set hs .holding ss.name true
  cases he : ss.exclusive <;> simp only [Session.Holds, hph, he] at hf ht
  · obtain ⟨mu, hmu, hw, rfl⟩ :=
      rLock_eq_ok.mp (by simpa [Session.acquire, he, MutexMethod.call] using hc)
    rw [hmu] at ha
    simpa using ha.rLock hw (by simpa using hf) (by simpa using ht)
  · obtain ⟨mu, hmu, hw, h0, rfl⟩ :=
      lock_eq_ok.mp (by simpa [Session.acquire, he, MutexMethod.call] using hc)
    rw [hmu] at ha
    simpa using ha.lock hw h0 (by simpa using hf) (by simpa using ht)

theorem Accounts.release (hs : l[i]? = some ss) (hph : ss.phase = .holding)
    (ha : Accounts l ss.name (m.mutexes.lookup ss.name))
    (hc : ss.release.call m ss.name = some (.ok m')) :
    Accounts (l.set i { ss with phase := .released }) ss.name (m'.mutexes.lookup ss.name) := by
  have hf := holders_set hs .released ss.name false
  have ht := holders_set hs .released ss.name true
  cases he : ss.exclusive <;> simp only [Session.Holds, hph, he] at hf ht
  · obtain ⟨mu, hmu, -, rfl⟩ :=
      rUnlock_eq_ok.mp (by simpa [Session.release, he, MutexMethod.call] using hc)
    rw [hmu] at ha
    simpa using ha.rUnlock (by simpa using hf) (by simpa using ht)
  · obtain ⟨mu, hmu, hw, rfl⟩ :=
      unlock_eq_ok.mp (by simpa [Session.release, he, MutexMethod.call] using hc)
    rw [hmu] at ha
    simpa using ha.unlock hw (by simpa using hf) (by simpa using ht)

end Count

/-! ## Fresh mutexes -/

section Fresh

variable {w w' w'' : World}

open World

/-- `w'` has the mutexes of `w`, and maybe fresh ones under names that had none. -/
def FreshMutexes (w w' : World) : Prop :=
  ∀ name, w'.map.mutexes.lookup name = w.map.mutexes.lookup name ∨
    (w.map.mutexes.lookup name = none ∧ w'.map.mutexes.lookup name = some {})

theorem FreshMutexes.trans (h₁ : FreshMutexes w w') (h₂ : FreshMutexes w' w'') :
    FreshMutexes w w'' := fun name => by
  rcases h₁ name with e₁ | ⟨n₁, f₁⟩ <;> rcases h₂ name with e₂ | ⟨n₂, f₂⟩
  · exact .inl (e₂.trans e₁)
  · exact .inr ⟨e₁ ▸ n₂, f₂⟩
  · exact .inr ⟨n₁, e₂.trans f₁⟩
  · rw [f₁] at n₂; cases n₂

theorem World.KeepsApps.freshMutexes (h : KeepsApps w w') : FreshMutexes w w' :=
  fun _ => .inl (by rw [h.mutexes])

/-- **`Put`** adds a mutex only under a name without an application, which has no mutex. -/
theorem put_freshMutexes (hw : Consistent w) (a : AppRef) : FreshMutexes w (w.put a).1 := by
  rcases put_cases w a with ⟨_, -, he⟩ | ⟨hn, he⟩
  · rw [he]; exact fun _ => .inl rfl
  · rw [he]
    intro name
    by_cases h : name = (w.deref a).name
    · subst h
      refine .inr ⟨AList.lookup_eq_none.mpr fun hm => ?_, by simp [ThreadSafeApplicationMap.add]⟩
      exact AList.lookup_eq_none.mp hn ((hw.mutexes _).mpr hm)
    · exact .inl (by simp [ThreadSafeApplicationMap.add, AList.lookup_insert_ne h])


end Fresh

/-! ## Accounted maps -/

section Accounted

variable {l : List Session} {m m' : ThreadSafeApplicationMap} {i : Nat} {ss : Session} {ph : Phase}
  {w w' : World}

open World

theorem accounted_empty : Accounted [] ThreadSafeApplicationMap.empty :=
  fun _ => ⟨rfl, rfl, fun _ h => by simp [ThreadSafeApplicationMap.empty] at h⟩

/-- Fresh mutexes are held by no one. -/
theorem Accounted.fresh (ha : Accounted l w.map) (hf : FreshMutexes w w') : Accounted l w'.map :=
  fun name => by
    rcases hf name with he | ⟨h0, h1⟩
    · exact he ▸ ha name
    · exact h1 ▸ (h0 ▸ ha name).fresh

/-- A new session holds nothing yet. -/
theorem Accounted.begin (ha : Accounted l m) (name : String) (exclusive : Bool) :
    Accounted (l ++ [⟨name, exclusive, .start⟩]) m :=
  fun x => (ha x).congr fun e => holders_begin name exclusive e

/-- A session holding a lock finds its mutex held as it holds it, so its unlock returns. -/
theorem Accounted.release_ok (ha : Accounted l m) (hss : ss ∈ l) (hph : ss.phase = .holding) :
    ∃ m', ss.release.call m ss.name = some (.ok m') := by
  have hpos := holders_pos hss hph
  have hs := ha ss.name
  cases hmu : m.mutexes.lookup ss.name with
  | none =>
    cases he : ss.exclusive <;> simp [he, hs.readers, hs.writers, hmu, readersOf, writersOf] at hpos
  | some mu =>
    cases he : ss.exclusive
    · rw [he, hs.readers, hmu] at hpos
      exact ⟨_, by simpa [Session.release, he, MutexMethod.call] using
        rUnlock_eq_ok.mpr ⟨mu, hmu, Nat.pos_iff_ne_zero.mp hpos, rfl⟩⟩
    · rw [he, hs.writers, hmu] at hpos
      have hw : mu.writer = true := by by_contra h; simp [writersOf, h] at hpos
      exact ⟨_, by simpa [Session.release, he, MutexMethod.call] using
        unlock_eq_ok.mpr ⟨mu, hmu, hw, rfl⟩⟩

/-- Session `i` moving between two phases that hold nothing. -/
theorem Accounted.set_idle (ha : Accounted l m) (hs : l[i]? = some ss)
    (h₁ : ss.phase ≠ .holding) (h₂ : ph ≠ .holding) :
    Accounted (l.set i { ss with phase := ph }) m :=
  fun x => (ha x).congr fun e => by simpa [h₁, h₂] using holders_set hs ph x e

/-- A lock call of session `i` that returns: every other name keeps its mutex and its holders,
so the map is accounted for if the session's own name is. -/
theorem Accounted.of_call (ha : Accounted l m) (hs : l[i]? = some ss) {method : MutexMethod}
    (hc : method.call m ss.name = some (.ok m'))
    (hown : Accounts (l.set i { ss with phase := ph }) ss.name (m'.mutexes.lookup ss.name)) :
    Accounted (l.set i { ss with phase := ph }) m' := fun x => by
  by_cases hx : x = ss.name
  · subst hx; exact hown
  · obtain ⟨-, mu, rfl⟩ := call_ok hc
    dsimp only
    rw [AList.lookup_insert_ne hx]
    exact (ha x).congr fun e => by simpa [Ne.symm hx] using holders_set hs ph x e

/-- A lock call moves its session on and leaves the map it returns, or panics. -/
theorem Session.onCall_eq_some {next : Phase} {o : Option (Outcome ThreadSafeApplicationMap)}
    (h : Session.onCall w next o = some (w', ph)) :
    (∃ m, o = some (.ok m) ∧ { w with map := m } = w' ∧ next = ph) ∨
      ((∀ m, o ≠ some (.ok m)) ∧ w = w' ∧ Phase.crashed = ph) := by
  rcases o with _ | _ | _ | m <;> simp [Session.onCall] at h ⊢ <;> exact h

/-- **A session's lock call** changes only the mutex of its name, or panics and changes
nothing. -/
theorem Session.advance_cases (h : ss.advance w = some (w', ph)) :
    (w' = w ∧ ph = .crashed) ∨
      ∃ (method : MutexMethod) (m : ThreadSafeApplicationMap),
        method.call w.map ss.name = some (.ok m) ∧ w' = { w with map := m } := by
  cases hph : ss.phase <;> simp only [Session.advance, hph, reduceCtorEq] at h <;>
    rcases Session.onCall_eq_some h with ⟨m, hc, rfl, -⟩ | ⟨-, rfl, rfl⟩
  all_goals first | exact .inl ⟨rfl, rfl⟩ | exact .inr ⟨_, m, hc, rfl⟩

theorem Session.advance_grows (h : ss.advance w = some (w', ph)) : Grows w w' := by
  rcases Session.advance_cases h with ⟨rfl, -⟩ | ⟨_, _, hc, rfl⟩
  · exact Grows.refl _
  · exact call_grows hc

theorem Session.advance_consistent (h : ss.advance w = some (w', ph)) (hw : Consistent w) :
    Consistent w' := by
  rcases Session.advance_cases h with ⟨rfl, -⟩ | ⟨_, _, hc, rfl⟩
  · exact hw
  · exact call_consistent hc hw

/-- **A session's lock call** keeps every mutex accounted for. -/
theorem Accounted.advance (ha : Accounted l w.map) (hs : l[i]? = some ss)
    (h : ss.advance w = some (w', ph)) : Accounted (l.set i { ss with phase := ph }) w'.map := by
  cases hph : ss.phase with
  | released | crashed => simp [Session.advance, hph] at h
  | start =>
    rcases Session.onCall_eq_some (by simpa only [Session.advance, hph] using h) with
      ⟨m, hc, rfl, rfl⟩ | ⟨-, rfl, rfl⟩
    · exact ha.of_call hs hc ((ha ss.name).acquire hs hph hc)
    · exact ha.set_idle hs (by simp [hph]) (by simp)
  | holding =>
    obtain ⟨m, hm⟩ := ha.release_ok (List.getElem?_mem hs) hph
    rcases Session.onCall_eq_some (by simpa only [Session.advance, hph] using h) with
      ⟨m', hc, rfl, rfl⟩ | ⟨hno, -⟩
    · exact ha.of_call hs hc ((ha ss.name).release hs hph hc)
    · exact absurd hm (hno m)

end Accounted

end AbnStore
