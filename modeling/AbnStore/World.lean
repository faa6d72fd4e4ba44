import AbnStore.Key

/-!
# The application map and its methods

Model of `ThreadSafeApplicationMap` and its methods (`applicationmap.go:54-247`): `RLock`,
`RUnlock`, `Lock`, `Unlock`, `Put`, `Get`, `Read`, `readFromSecret`, `Write` and `BatchedWrite`,
each run start to finish. `Goroutines.lean` interleaves them.

* A method runs on a `World`: the map, the heap of `Application` objects that its pointers
  address, and the secrets of the cluster. The global `Applications` starts as `World.init`:
  the empty maps of `init`, no objects, and whatever secrets the cluster holds.
* `m.mutex` makes `Put` and `Get` atomic; each is one function here. A per-application mutex is an
  `RWMutex` record, and `Outcome` says whether a method call on it returns, waits, or unlocks a
  mutex that is not held (fatal in `sync`); `onMutex` is `none` when there is no entry in
  `m.mutexes`, where the call panics on a `nil` pointer. Writer preference of `sync.RWMutex` is
  left out: `RLock` waits only while a writer holds the mutex.
* The Kubernetes client is `Cluster.get` and `Cluster.update` on the cluster's secrets; `Io` says
  whether the API server fails the request. `Update` replaces the secret.
* `readFromSecret` allocates the application it returns; the `NewApplication` it builds first and
  drops on its success path is garbage, and is not allocated.
* `Write` returns an `Except`: `.ok` is the world after a `nil` return. `persist` is `Write` up
  to its last statement, the write of `lastWriteTimes`, which `Goroutines.lean` runs as a step of
  its own. `Write` changes nothing the map can see before its last statement, so a caller that
  gets an error keeps its world (`writeOrKeep`).
* `BatchWriteInterval` is the parameter `batchWriteInterval`. Only `&now` is ever stored in
  `lastWriteTimes`, so `BatchedWrite`'s `lastWrite == nil` test is the missing-key test.
-/

namespace AbnStore

/-! ## The cluster -/

/-- A `corev1.Secret`, by the fields the code touches: `Data`, and `StringData` (`none` when
`nil`). -/
structure Secret where
  data : GoMap String Bytes
  stringData : Option (GoMap String Bytes)

/-- `secret.Data[secretKey] = rawData`, and the same in `StringData` unless it is `nil`. -/
def Secret.store (secret : Secret) (rawData : Bytes) : Secret :=
  { data := secret.data.insert secretKey rawData
    stringData := secret.stringData.map (·.insert secretKey rawData) }

/-- The secrets of the cluster, by namespace and name. -/
structure Cluster where
  secrets : GoMap (String × String) Secret

/-- `Secrets(ns).Get(name)`: the secret, unless the API server fails the request (`fault`) or has
no such secret. -/
def Cluster.get (c : Cluster) (fault : Option String) (ns name : String) : Except Error Secret :=
  match fault with
  | some msg => .error (.client msg)
  | none =>
    match c.secrets.lookup (ns, name) with
    | some secret => .ok secret
    | none => .error (.notFound ns name)

/-- `Secrets(ns).Update(secret)`: store it, unless the API server fails the request. -/
def Cluster.update (c : Cluster) (fault : Option String) (ns name : String) (secret : Secret) :
    Except Error Cluster :=
  match fault with
  | some msg => .error (.client msg)
  | none => .ok ⟨c.secrets.insert (ns, name) secret⟩

/-- `readFromSecret` up to `yaml.Unmarshal`: the application in the secret, or the error that
`readFromSecret` returns along with a new application (`none` when unmarshalling failed, where it
returns no error). -/
def Cluster.unmarshalSecret (c : Cluster) (io : Io) (application : String) :
    Except (Option Error) Application :=
  match c.get io.getFault (namespaceFromKey application) (nameFromKey application ++ secretPostfix) with
  | .error err => .error (some err)
  | .ok secret =>
    match secret.data.lookup secretKey with
    | none => .error (some .missingKey)
    | some rawData =>
      match io.yaml.unmarshal rawData with
      | .error _ => .error none
      | .ok a => .ok a

/-! ## Mutexes -/

/-- A `sync.RWMutex`: how many readers hold it, and whether a writer does. -/
structure RWMutex where
  readers : Nat := 0
  writer : Bool := false
  deriving DecidableEq

/-- What a method call on a mutex does. -/
inductive Outcome (α : Type)
  /-- The goroutine blocks until another one releases the mutex. -/
  | waits
  /-- Unlocking a mutex that is not held: a fatal error in `sync`. -/
  | misuse
  /-- The call returns and leaves this. -/
  | ok (x : α)
  deriving DecidableEq

/-- The outcome with what it leaves changed by `f`. -/
def Outcome.map {α β : Type} (f : α → β) : Outcome α → Outcome β
  | .waits => .waits
  | .misuse => .misuse
  | .ok x => .ok (f x)

/-- `RWMutex.RLock`. -/
def RWMutex.rLock (mu : RWMutex) : Outcome RWMutex :=
  if mu.writer then .waits else .ok { mu with readers := mu.readers + 1 }

/-- `RWMutex.RUnlock`. -/
def RWMutex.rUnlock (mu : RWMutex) : Outcome RWMutex :=
  if mu.readers = 0 then .misuse else .ok { mu with readers := mu.readers - 1 }

/-- `RWMutex.Lock`. -/
def RWMutex.lock (mu : RWMutex) : Outcome RWMutex :=
  if mu.writer ∨ 0 < mu.readers then .waits else .ok { mu with writer := true }

/-- `RWMutex.Unlock`. -/
def RWMutex.unlock (mu : RWMutex) : Outcome RWMutex :=
  if mu.writer then .ok { mu with writer := false } else .misuse

/-! ## The map -/

/-- `ThreadSafeApplicationMap`. -/
structure ThreadSafeApplicationMap where
  apps : GoMap String AppRef
  mutexes : GoMap String RWMutex
  lastWriteTimes : GoMap String Time

namespace ThreadSafeApplicationMap

/-- The map `init` builds. -/
def empty : ThreadSafeApplicationMap := ⟨∅, ∅, ∅⟩

/-- `m.mutexes[application].method()`, the four lock methods below: `none` when there is no
entry, where the call dereferences a `nil` mutex and panics. -/
def onMutex (m : ThreadSafeApplicationMap) (application : String)
    (method : RWMutex → Outcome RWMutex) : Option (Outcome ThreadSafeApplicationMap) :=
  (m.mutexes.lookup application).map fun mu =>
    (method mu).map fun mu' => { m with mutexes := m.mutexes.insert application mu' }

/-- `RLock`. -/
def rLock (m : ThreadSafeApplicationMap) (application : String) :=
  m.onMutex application RWMutex.rLock

/-- `RUnlock`. -/
def rUnlock (m : ThreadSafeApplicationMap) (application : String) :=
  m.onMutex application RWMutex.rUnlock

/-- `Lock`. -/
def lock (m : ThreadSafeApplicationMap) (application : String) :=
  m.onMutex application RWMutex.lock

/-- `Unlock`. -/
def unlock (m : ThreadSafeApplicationMap) (application : String) :=
  m.onMutex application RWMutex.unlock

/-- `Put`'s insertion: `m.apps[name] = a` and `m.mutexes[name] = &sync.RWMutex{}`. -/
def add (m : ThreadSafeApplicationMap) (name : String) (a : AppRef) : ThreadSafeApplicationMap :=
  { m with apps := m.apps.insert name a, mutexes := m.mutexes.insert name {} }

/-- `m.lastWriteTimes[name] = &now`. -/
def record (m : ThreadSafeApplicationMap) (name : String) (now : Time) : ThreadSafeApplicationMap :=
  { m with lastWriteTimes := m.lastWriteTimes.insert name now }

/-- Whether `BatchedWrite` calls `Write` at `now`: no write time on record for `name`, or the
last one more than `batchWriteInterval` before `now`. -/
def writeDue (batchWriteInterval : Duration) (m : ThreadSafeApplicationMap) (now : Time)
    (name : String) : Bool :=
  match m.lastWriteTimes.lookup name with
  | none => true
  | some lastWrite => decide (batchWriteInterval < now.sub lastWrite)

end ThreadSafeApplicationMap

/-! ## The world -/

/-- The map, the `Application` objects, and the cluster. -/
structure World where
  map : ThreadSafeApplicationMap
  heap : List Application
  cluster : Cluster

namespace World

/-- `Applications` after `init`, over a cluster holding `cluster`. -/
def init (cluster : Cluster) : World := ⟨.empty, [], cluster⟩

/-- `*a`. -/
def deref (w : World) (a : AppRef) : Application := w.heap.getD a default

/-- A new object; its address is `w.heap.length`. -/
def alloc (w : World) (obj : Application) : World := { w with heap := w.heap ++ [obj] }

/-- `Put`: insert `a` under its name unless the name is taken; return what is or was there. -/
def put (w : World) (a : AppRef) : World × AppRef :=
  match w.map.apps.lookup (w.deref a).name with
  | some current => (w, current)
  | none => ({ w with map := w.map.add (w.deref a).name a }, a)

/-- `Get`. -/
def get (w : World) (application : String) : Except Error AppRef :=
  match w.map.apps.lookup application with
  | some a => .ok a
  | none => .error (.notInMemory application)

/-- `readFromSecret`: the world, the new application's address, and the error. -/
def readFromSecret (w : World) (io : Io) (application : String) : World × AppRef × Option Error :=
  match w.cluster.unmarshalSecret io application with
  | .error err => (w.alloc (newApplication application), w.heap.length, err)
  | .ok a =>
    ({ w with map := w.map.record application io.now }.alloc { a with name := application },
      w.heap.length, none)

/-- `Read`: `Get`, and on a miss `readFromSecret` then `Put`. -/
def read (w : World) (io : Io) (application : String) : World × AppRef × Option Error :=
  match w.get application with
  | .ok a => (w, a, none)
  | .error _ =>
    let r := w.readFromSecret io application
    ((r.1.put r.2.1).1, (r.1.put r.2.1).2, r.2.2)

/-- `Write` up to its last statement: marshal the application, get its secret, set
`Data[secretKey]`, and update the secret. `.ok` with the cluster after the update. -/
def persist (w : World) (io : Io) (a : AppRef) : Except Error Cluster :=
  let name := (w.deref a).name
  match io.yaml.marshal (w.deref a) with
  | .error e => .error (.marshal e)
  | .ok rawData =>
    match w.cluster.get io.getFault (namespaceFromKey name) (secretNameFromKey name) with
    | .error e => .error e
    | .ok secret =>
      w.cluster.update io.updateFault (namespaceFromKey name) (secretNameFromKey name)
        (secret.store rawData)

/-- `Write`: `.ok` with the world after it returns `nil`, which has also recorded the time. -/
def write (w : World) (io : Io) (a : AppRef) : Except Error World :=
  match w.persist io a with
  | .error e => .error e
  | .ok cluster => .ok { w with cluster, map := w.map.record (w.deref a).name io.now }

/-- `Write` as its caller sees it: the world after the call, and the error it returns. -/
def writeOrKeep (w : World) (io : Io) (a : AppRef) : World × Option Error :=
  match w.write io a with
  | .ok w' => (w', none)
  | .error e => (w, some e)

/-- `BatchedWrite`: `Write` when one is due at `io.checkedAt`. -/
def batchedWrite (batchWriteInterval : Duration) (w : World) (io : Io) (a : AppRef) :
    World × Option Error :=
  if w.map.writeDue batchWriteInterval io.checkedAt (w.deref a).name then w.writeOrKeep io a
  else (w, none)

end World

/-! ## Calls -/

/-- The four lock methods. -/
inductive MutexMethod
  | rLock
  | rUnlock
  | lock
  | unlock
  deriving DecidableEq

/-- The method itself. -/
def MutexMethod.call :
    MutexMethod → ThreadSafeApplicationMap → String → Option (Outcome ThreadSafeApplicationMap)
  | .rLock => ThreadSafeApplicationMap.rLock
  | .rUnlock => ThreadSafeApplicationMap.rUnlock
  | .lock => ThreadSafeApplicationMap.lock
  | .unlock => ThreadSafeApplicationMap.unlock

/-- A call of one of the map's methods, with its arguments, or a caller building an object
(`&Application{...}`), as the tests do before `Put`. -/
inductive Call
  | alloc (obj : Application)
  | put (a : AppRef)
  | get (application : String)
  | read (application : String)
  | readFromSecret (application : String)
  | write (a : AppRef)
  | batchedWrite (a : AppRef)
  | mutex (method : MutexMethod) (application : String)
  deriving DecidableEq

/-- A call run start to finish, and the world after it. A lock call that waits or fails leaves the
world as it was. -/
def World.exec (batchWriteInterval : Duration) (w : World) (io : Io) : Call → World
  | .alloc obj => w.alloc obj
  | .put a => (w.put a).1
  | .get _ => w
  | .read application => (w.read io application).1
  | .readFromSecret application => (w.readFromSecret io application).1
  | .write a => (w.writeOrKeep io a).1
  | .batchedWrite a => (w.batchedWrite batchWriteInterval io a).1
  | .mutex method application =>
    match method.call w.map application with
    | some (.ok m) => { w with map := m }
    | _ => w

/-- Calls run one after another, each with what the outside world answered to it. -/
def World.run (batchWriteInterval : Duration) (w : World) (ops : List (Call × Io)) : World :=
  ops.foldl (fun w op => w.exec batchWriteInterval op.2 op.1) w

end AbnStore
