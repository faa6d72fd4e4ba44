import Mathlib.Data.List.AList
import Mathlib.Algebra.Group.Int

/-!
# Go values of the A/B/N application store

The values `abn/application/applicationmap.go` works with.

* A Go `map[κ]ν` is an `AList`: distinct keys, `lookup` is the comma-ok read, `insert` the
  assignment and `erase` the `delete`. A `nil` map reads as empty, so `Write`'s
  `if secret.Data == nil` is a no-op here.
* Pointers are addresses into a heap of objects (`AppRef`, `VersionRef`); the heap itself is part
  of `World` (`World.lean`). The `nil` pointer is `none` where the code can produce one.
* A `time.Time` from `time.Now()` is its monotonic reading, an `int64` of nanoseconds since the
  process started, never negative (`Time`). `Time.sub` is Go's `subMono` with its saturation;
  `sub_eq` shows that on two such readings it is the plain difference.
* `Application` and `NewApplication` are declared in `application.go`, which is not among the
  sources; they are modelled with the fields this file reads (`Name`, `Tracks`, `Versions`).
* The YAML library and the Kubernetes API server are the outside world: `Io` holds what they
  (and the clock) answer during one call.
-/

namespace AbnStore

/-- A Go `map[κ]ν`. -/
abbrev GoMap (κ ν : Type) := AList (fun _ : κ => ν)

/-- A Go `[]byte`. -/
abbrev Bytes := List UInt8

/-! ## Time -/

/-- A `time.Duration`, in nanoseconds. -/
abbrev Duration := Int

/-- A reading of `time.Now()` by its monotonic clock: nanoseconds since the process started. -/
structure Time where
  ns : Nat
  lt : ns < 2 ^ 63
  deriving DecidableEq

instance : LE Time := ⟨fun t u => t.ns ≤ u.ns⟩

instance : DecidableRel (α := Time) (· ≤ ·) := fun t u => inferInstanceAs (Decidable (t.ns ≤ u.ns))

theorem Time.le_def {t u : Time} : t ≤ u ↔ t.ns ≤ u.ns := Iff.rfl

instance : Inhabited Time := ⟨⟨0, Nat.two_pow_pos 63⟩⟩

/-- The `int64` result of a subtraction that may wrap around. -/
def wrap64 (x : Int) : Int := (x + 2 ^ 63) % 2 ^ 64 - 2 ^ 63

/-- `maxDuration` of package `time`. -/
def maxDuration : Duration := 2 ^ 63 - 1

/-- `minDuration` of package `time`. -/
def minDuration : Duration := -2 ^ 63

/-- `t.Sub(u)` of two monotonic readings (`subMono`): the `int64` difference, saturated at
`maxDuration` or `minDuration` when it wraps. -/
def Time.sub (t u : Time) : Duration :=
  let d := wrap64 ((t.ns : Int) - u.ns)
  if d < 0 ∧ u.ns < t.ns then maxDuration
  else if 0 < d ∧ t.ns < u.ns then minDuration
  else d

theorem wrap64_of_lt {x : Int} (h1 : -2 ^ 63 ≤ x) (h2 : x < 2 ^ 63) : wrap64 x = x := by
  rw [wrap64, Int.emod_eq_of_lt (by omega) (by omega)]
  omega

/-- Two readings never wrap: `Sub` is the difference. -/
theorem Time.sub_eq (t u : Time) : t.sub u = (t.ns : Int) - u.ns := by
  have ht := t.lt
  have hu := u.lt
  have hw : wrap64 ((t.ns : Int) - u.ns) = (t.ns : Int) - u.ns := wrap64_of_lt (by omega) (by omega)
  simp only [Time.sub, hw]
  split_ifs with h1 h2
  · exact absurd h1.1 (by omega)
  · exact absurd h2.1 (by omega)
  · rfl

theorem Time.sub_le_sub_left {t u u' : Time} (h : u ≤ u') : t.sub u' ≤ t.sub u := by
  rw [Time.sub_eq, Time.sub_eq]
  exact Int.sub_le_sub_left (Int.ofNat_le.mpr h) _

theorem Time.sub_le_sub_right {t t' u : Time} (h : t ≤ t') : t.sub u ≤ t'.sub u := by
  rw [Time.sub_eq, Time.sub_eq]
  exact Int.sub_le_sub_right (Int.ofNat_le.mpr h) _

/-! ## Constants of `applicationmap.go` -/

/-- `secretPostfix`. -/
def secretPostfix : String := "-metrics"

/-- `secretKey`. -/
def secretKey : String := "application.yaml"

/-- `defaultBatchWriteInterval`: sixty seconds. -/
def defaultBatchWriteInterval : Duration := 60 * 1000000000

/-! ## Applications -/

/-- A `*Version`: the address of a version object. -/
abbrev VersionRef := Nat

/-- Modelled from the spec: `Application` (declared in `application.go`, not among the sources),
with the fields the code reads: `Name`, the key `namespace/name`; `Tracks`, track to version name;
`Versions`, version name to `*Version`. -/
structure Application where
  name : String
  tracks : GoMap String String
  versions : GoMap String VersionRef
  deriving DecidableEq, Inhabited

/-- Modelled from the spec: `NewApplication(application)` (declared in `application.go`, not
among the sources): an empty application named `application`, which is how `readFromSecret` uses
it in place of the one it could not read. -/
def newApplication (application : String) : Application :=
  { name := application, tracks := ∅, versions := ∅ }

/-- A `*Application`: the address of the object in the heap. -/
abbrev AppRef := Nat

/-! ## Errors and the outside world -/

/-- The errors the map's methods return. -/
inductive Error
  /-- `Get`: `errors.New(application + " not in memory")`. -/
  | notInMemory (application : String)
  /-- `readFromSecret`: `errors.New("secret does not contain expected key: " + secretKey)`. -/
  | missingKey
  /-- The API server has no secret of that name (client-go's `NotFound`). -/
  | notFound (ns name : String)
  /-- The API server failed the request. -/
  | client (msg : String)
  /-- `yaml.Marshal` failed. -/
  | marshal (msg : String)
  deriving DecidableEq

/-- The text of an error. -/
def Error.message : Error → String
  | .notInMemory application => application ++ " not in memory"
  | .missingKey => "secret does not contain expected key: " ++ secretKey
  | .notFound _ name => "secrets \"" ++ name ++ "\" not found"
  | .client msg => msg
  | .marshal msg => msg

/-- The YAML library as the code calls it: `yaml.Marshal(a)`, and `yaml.Unmarshal` into an
empty `Application`. -/
structure Yaml where
  marshal : Application → Except String Bytes
  unmarshal : Bytes → Except String Application
  deriving Inhabited

/-- What the outside world answers during one call: the clock, the YAML library, and whether the
API server fails a `Get` or an `Update` of a secret (`some msg`: with that message). -/
structure Io where
  /-- `BatchedWrite`'s `now`, read before it decides. -/
  checkedAt : Time
  /-- The `now` that `Write` and `readFromSecret` record. -/
  now : Time
  yaml : Yaml
  getFault : Option String
  updateFault : Option String
  deriving Inhabited

end AbnStore
