import AbnStore.Frame

/-!
# Batched writes

Model of the law behind `BatchedWrite` (`applicationmap.go:220-247`): an application is written
at most once per `BatchWriteInterval`, counted from the last time it was persisted or read back.
Runs are `World.run`: calls one after another, each with its own clock readings and its own
answers from the API server and the YAML library, so every pattern of failures is a run.

* `saved`: what a call should make `lastWriteTimes` learn. A `Write` that returns `nil` (called
  directly or by `BatchedWrite`), or a `readFromSecret` whose secret unmarshals (called directly
  or by `Read` after a miss), with the application's name and the time the call recorded.
  `saves` lists them over a run.
* `Clocked`: the clock readings of a run never decrease, as `time.Now()`'s monotonic ones do.

Results:
* `lastWriteTimes_run`: after any run, `lastWriteTimes` holds for each name the time of its
  latest save, and nothing for a name never saved.
* `batchedWrite_writes_iff_no_recent_save`: at any point of a clocked run, `BatchedWrite(a)` at
  time `t` calls `Write(a)` iff no save of `a.Name` happened at a time `t'` with
  `t - t' <= BatchWriteInterval`; if that `Write` fails, `lastWriteTimes` is unchanged; and any
  two writes that `BatchedWrite` made for one name are more than `BatchWriteInterval` apart.

The law is stated for calls one after another. `BatchedWrite` reads `lastWriteTimes` and calls
`Write` with no lock held: in `Goroutines.lean`, where those accesses are steps of their own, two
goroutines may both find a write due, and their writes of `lastWriteTimes` race
(`Interleavings.writes_race`).
-/

namespace AbnStore

/-- A persist or a load of an application: its name, the time recorded, and whether
`BatchedWrite` made it. -/
structure Save where
  name : String
  time : Time
  batched : Bool

variable (batchWriteInterval : Duration)

/-- The save a call makes, if any. -/
def saved (w : World) (io : Io) : Call → Option Save
  | .write a =>
    match w.write io a with
    | .ok _ => some ⟨(w.deref a).name, io.now, false⟩
    | .error _ => none
  | .batchedWrite a =>
    if w.map.writeDue batchWriteInterval io.checkedAt (w.deref a).name then
      match w.write io a with
      | .ok _ => some ⟨(w.deref a).name, io.now, true⟩
      | .error _ => none
    else none
  | .readFromSecret application =>
    match w.cluster.unmarshalSecret io application with
    | .ok _ => some ⟨application, io.now, false⟩
    | .error _ => none
  | .read application =>
    match w.get application, w.cluster.unmarshalSecret io application with
    | .error _, .ok _ => some ⟨application, io.now, false⟩
    | _, _ => none
  | _ => none

/-- The saves of a run, in order. -/
def saves : World → List (Call × Io) → List Save
  | _, [] => []
  | w, op :: ops => (saved batchWriteInterval w op.2 op.1).toList ++
      saves (w.exec batchWriteInterval op.2 op.1) ops

/-- The time of the latest save of `name`. -/
def latest (ss : List Save) (name : String) : Option Time :=
  ((ss.filter (·.name = name)).getLast?).map (·.time)

/-- The clock readings of a call: `BatchedWrite`'s, then the one a `Write` or `readFromSecret`
records. -/
def Io.readings (io : Io) : List Time := [io.checkedAt, io.now]

/-- The clock never goes back over a run. -/
def Clocked (ops : List (Call × Io)) : Prop := (ops.flatMap (·.2.readings)).Pairwise (· ≤ ·)

variable {batchWriteInterval}

open World

/-! ## `lastWriteTimes` over a run -/

/-- **One call** records the time of its save, and nothing else. -/
theorem lastWriteTimes_exec (w : World) (io : Io) (c : Call) :
    (w.exec batchWriteInterval io c).map.lastWriteTimes =
      match saved batchWriteInterval w io c with
      | some sv => w.map.lastWriteTimes.insert sv.name sv.time
      | none => w.map.lastWriteTimes := by
  cases c with
  | alloc obj => rfl
  | put a => simp [exec, saved]
  | get application => rfl
  | read application =>
    cases hg : w.get application <;> cases hu : w.cluster.unmarshalSecret io application <;>
      simp [exec, World.read, saved, hg, hu, readFromSecret_of_error, readFromSecret_of_ok,
        ThreadSafeApplicationMap.record]
  | readFromSecret application =>
    cases hu : w.cluster.unmarshalSecret io application <;>
      simp [exec, saved, hu, readFromSecret_of_error, readFromSecret_of_ok,
        ThreadSafeApplicationMap.record]
  | write a =>
    cases hw : w.write io a with
    | error e => simp [exec, saved, hw, writeOrKeep_of_error]
    | ok w' => simp [exec, saved, hw, writeOrKeep_of_ok, (write_ok hw).1, ThreadSafeApplicationMap.record]
  | batchedWrite a =>
    by_cases hd : w.map.writeDue batchWriteInterval io.checkedAt (w.deref a).name = true
    · cases hw : w.write io a with
      | error e => simp [exec, batchedWrite, saved, hd, hw, writeOrKeep_of_error]
      | ok w' =>
        simp [exec, batchedWrite, saved, hd, hw, writeOrKeep_of_ok, (write_ok hw).1,
          ThreadSafeApplicationMap.record]
    · simp [exec, batchedWrite, saved, hd]
  | mutex method application =>
    simp only [exec, saved]
    split
    · obtain ⟨-, mu, rfl⟩ := call_ok ‹_›
      rfl
    · rfl

theorem latest_append (ss ss' : List Save) (name : String) :
    latest (ss ++ ss') name = (latest ss' name).or (latest ss name) := by
  simp only [latest, List.filter_append, List.getLast?_append]
  cases (ss'.filter (·.name = name)).getLast? <;> simp

theorem lookup_exec (w : World) (io : Io) (c : Call) (name : String) :
    (w.exec batchWriteInterval io c).map.lastWriteTimes.lookup name =
      (latest (saved batchWriteInterval w io c).toList name).or
        (w.map.lastWriteTimes.lookup name) := by
  rw [lastWriteTimes_exec]
  cases saved batchWriteInterval w io c with
  | none => rfl
  | some sv =>
    by_cases h : sv.name = name
    · subst h
      simp [latest]
    · simp [latest, h, AList.lookup_insert_ne (Ne.symm h)]

/-- **`lastWriteTimes` holds the latest save** of each name over any run. -/
theorem lastWriteTimes_run (w : World) (ops : List (Call × Io)) (name : String) :
    (w.run batchWriteInterval ops).map.lastWriteTimes.lookup name =
      (latest (saves batchWriteInterval w ops) name).or (w.map.lastWriteTimes.lookup name) := by
  induction ops generalizing w with
  | nil => simp [run, saves, latest]
  | cons op ops ih =>
    simp only [run, List.foldl_cons] at ih ⊢
    rw [ih, lookup_exec, saves, latest_append, Option.or_assoc]

/-! ## The clock -/

variable {w : World} {io : Io} {c : Call} {sv : Save}

theorem saved_time (h : saved batchWriteInterval w io c = some sv) : sv.time = io.now := by
  cases c <;> simp only [saved, reduceCtorEq] at h <;> (repeat' split at h) <;>
    first | cases h; rfl | cases h

theorem saved_batched (h : saved batchWriteInterval w io c = some sv) (hb : sv.batched = true) :
    ∃ a, c = .batchedWrite a ∧ sv.name = (w.deref a).name ∧
      w.map.writeDue batchWriteInterval io.checkedAt sv.name = true := by
  cases c with
  | batchedWrite a =>
    simp only [saved] at h
    split at h
    · rename_i hd
      split at h <;> cases h
      exact ⟨a, rfl, rfl, hd⟩
    · cases h
  | _ => simp only [saved, reduceCtorEq] at h <;> split at h <;> cases h <;> cases hb

theorem saves_sublist (w : World) (ops : List (Call × Io)) :
    ((saves batchWriteInterval w ops).map (·.time)).Sublist (ops.flatMap (·.2.readings)) := by
  induction ops generalizing w with
  | nil => simp [saves]
  | cons op ops ih =>
    rw [saves, List.map_append, List.flatMap_cons]
    refine List.Sublist.append ?_ (ih _)
    cases hs : saved batchWriteInterval w op.2 op.1 with
    | none => simp
    | some sv => simp [saved_time hs, Io.readings]

theorem saves_append (w : World) (ops : List (Call × Io)) (op : Call × Io) :
    saves batchWriteInterval w (ops ++ [op]) =
      saves batchWriteInterval w ops ++
        (saved batchWriteInterval (w.run batchWriteInterval ops) op.2 op.1).toList := by
  induction ops generalizing w with
  | nil => simp [saves, run]
  | cons op' ops ih => simp [saves, ih, run]

theorem Clocked.of_append {ops ops' : List (Call × Io)} (h : Clocked (ops ++ ops')) : Clocked ops :=
  (List.pairwise_append.mp (by rwa [Clocked, List.flatMap_append] at h)).1

variable (batchWriteInterval) in
/-- Over a clocked run, saves come in time order, and a call reads the clock in order. -/
theorem Clocked.saves {ops : List (Call × Io)} {op : Call × Io} (h : Clocked (ops ++ [op]))
    (w : World) :
    ((saves batchWriteInterval w ops).map (·.time)).Pairwise (· ≤ ·) ∧
      op.2.checkedAt ≤ op.2.now := by
  rw [Clocked, List.flatMap_append, List.pairwise_append] at h
  exact ⟨h.1.sublist (saves_sublist w ops), by simpa [Io.readings] using h.2.1⟩

/-! ## The latest save -/

theorem latest_none {ss : List Save} {name : String} (h : latest ss name = none) :
    ∀ sv ∈ ss, sv.name ≠ name := by
  intro sv hsv hn
  simp only [latest, Option.map_eq_none', List.getLast?_eq_none_iff, List.filter_eq_nil_iff,
    decide_eq_true_eq] at h
  exact h sv hsv hn

theorem latest_some {ss : List Save} {name : String} {τ : Time} (h : latest ss name = some τ) :
    (∃ sv ∈ ss, sv.name = name ∧ sv.time = τ) ∧
      ((ss.map (·.time)).Pairwise (· ≤ ·) → ∀ sv ∈ ss, sv.name = name → sv.time ≤ τ) := by
  simp only [latest, Option.map_eq_some', List.getLast?_eq_some_iff] at h
  obtain ⟨last, ⟨ys, hys⟩, rfl⟩ := h
  have hlast : last ∈ ss.filter (·.name = name) := by rw [hys]; simp
  refine ⟨⟨last, (List.mem_filter.mp hlast).1, by simpa using (List.mem_filter.mp hlast).2, rfl⟩,
    fun hs sv hsv hn => ?_⟩
  have hpw : ((ys ++ [last]).map (·.time)).Pairwise (· ≤ ·) :=
    hys ▸ hs.sublist ((List.filter_sublist ss).map _)
  have hsv' : sv ∈ ys ++ [last] := hys ▸ List.mem_filter.mpr ⟨hsv, by simpa using hn⟩
  rw [List.map_append, List.pairwise_append] at hpw
  rcases List.mem_append.mp hsv' with hy | hy
  · exact hpw.2.2 _ (List.mem_map_of_mem _ hy) _ (by simp)
  · rw [List.mem_singleton.mp hy]
    exact le_refl last.time.ns

/-- **`BatchedWrite`'s test** after a run from the start whose saves come in time order: a write
is due at `t` iff every save of `name` was more than `batchWriteInterval` before `t`. -/
theorem writeDue_iff {cluster : Cluster} {ops : List (Call × Io)} {t : Time} {name : String}
    (hs : ((saves batchWriteInterval (init cluster) ops).map (·.time)).Pairwise (· ≤ ·)) :
    ((init cluster).run batchWriteInterval ops).map.writeDue batchWriteInterval t name = true ↔
      ∀ sv ∈ saves batchWriteInterval (init cluster) ops, sv.name = name →
        batchWriteInterval < (t.ns : Int) - sv.time.ns := by
  have hl : ((init cluster).run batchWriteInterval ops).map.lastWriteTimes.lookup name =
      latest (saves batchWriteInterval (init cluster) ops) name := by
    rw [lastWriteTimes_run]
    exact Option.or_none
  rw [ThreadSafeApplicationMap.writeDue, hl]
  cases h : latest (saves batchWriteInterval (init cluster) ops) name with
  | none => exact iff_of_true rfl fun sv hsv hn => absurd hn (latest_none h sv hsv)
  | some τ =>
    obtain ⟨⟨sv₀, hsv₀, hn₀, rfl⟩, hle⟩ := latest_some h
    simp only [decide_eq_true_eq, Time.sub_eq]
    exact ⟨fun hlt sv hsv hn =>
        lt_of_lt_of_le hlt (Int.sub_le_sub_left (Int.ofNat_le.mpr (hle hs sv hsv hn)) _),
      fun hall => hall sv₀ hsv₀ hn₀⟩

/-! ## The law -/

/-- Writes that `BatchedWrite` made for one name are more than `batchWriteInterval` apart. -/
theorem batched_spread (cluster : Cluster) (ops : List (Call × Io)) (hclock : Clocked ops)
    (name : String) :
    ((saves batchWriteInterval (init cluster) ops).filter fun sv => sv.batched ∧ sv.name = name).Pairwise
      fun s₁ s₂ => batchWriteInterval < (s₂.time.ns : Int) - s₁.time.ns := by
  induction ops using List.reverseRecOn with
  | nil => simp [saves]
  | append_singleton ops op ih =>
    obtain ⟨hs, hnow⟩ := hclock.saves batchWriteInterval (init cluster)
    rw [saves_append, List.filter_append, List.pairwise_append]
    refine ⟨ih hclock.of_append, ?_, fun y hy x hx => ?_⟩
    · refine List.Pairwise.sublist (List.filter_sublist _) ?_
      cases saved batchWriteInterval ((init cluster).run batchWriteInterval ops) op.2 op.1 <;> simp
    · cases hsv : saved batchWriteInterval ((init cluster).run batchWriteInterval ops) op.2 op.1 with
      | none => simp [hsv] at hx
      | some sv =>
        simp only [hsv, Option.toList_some, List.filter_cons, List.filter_nil, decide_eq_true_eq]
          at hx
        split at hx
        · rename_i hb
          obtain rfl := List.mem_singleton.mp hx
          obtain ⟨a, -, hname, hdue⟩ := saved_batched hsv hb.1
          obtain ⟨hy, hy'⟩ := List.mem_filter.mp hy
          simp only [decide_eq_true_eq] at hy'
          have hlt := (writeDue_iff hs).mp hdue y hy (hy'.2.trans hb.2.symm)
          rw [saved_time hsv]
          exact lt_of_lt_of_le hlt (Int.sub_le_sub_right (Int.ofNat_le.mpr hnow) _)
        · simp at hx

variable (batchWriteInterval) in
/-- **The batching law.** At any point of a run from the start in which the clock never goes back,
`BatchedWrite(a)` at `t` calls `Write(a)` iff no save of `a.Name` (a `Write` that returned `nil`,
or a secret that unmarshalled) happened at a `t'` with `t - t' ≤ BatchWriteInterval`; if that
`Write` fails, `lastWriteTimes` is unchanged, so a failed write never postpones the next one; and
the writes that `BatchedWrite` made for one name are more than `BatchWriteInterval` apart. -/
theorem batchedWrite_writes_iff_no_recent_save (cluster : Cluster) (ops : List (Call × Io))
    (a : AppRef) (io : Io) (hclock : Clocked (ops ++ [(.batchedWrite a, io)])) :
    let w := (init cluster).run batchWriteInterval ops
    (w.batchedWrite batchWriteInterval io a =
      if ∀ sv ∈ saves batchWriteInterval (init cluster) ops,
          sv.name = (w.deref a).name → batchWriteInterval < (io.checkedAt.ns : Int) - sv.time.ns
      then w.writeOrKeep io a else (w, none)) ∧
    (∀ e, w.write io a = .error e →
      (w.batchedWrite batchWriteInterval io a).1.map.lastWriteTimes = w.map.lastWriteTimes) ∧
    ∀ name, ((saves batchWriteInterval (init cluster) (ops ++ [(.batchedWrite a, io)])).filter
      fun sv => sv.batched ∧ sv.name = name).Pairwise
        fun s₁ s₂ => batchWriteInterval < (s₂.time.ns : Int) - s₁.time.ns := by
  intro w
  refine ⟨?_, fun e he => ?_, batched_spread cluster _ hclock⟩
  · exact if_congr (writeDue_iff (hclock.saves batchWriteInterval (init cluster)).1) rfl rfl
  · unfold batchedWrite
    split <;> simp [writeOrKeep_of_error he]

/-- A map over a cluster holding the secret of `default/application`: a caller builds the
application, a `BatchedWrite` of it at time 0 is due and writes it, and a second one 1 ns later is
too recent and writes nothing. -/
theorem batchedWrite_due_then_recent :
    let k := "default/application"
    let cluster : Cluster :=
      ⟨(∅ : GoMap _ _).insert (namespaceFromKey k, secretNameFromKey k) ⟨∅, none⟩⟩
    let yaml : Yaml := ⟨fun _ => .ok [], fun _ => .error "no YAML"⟩
    let io₀ : Io := ⟨⟨0, by decide⟩, ⟨0, by decide⟩, yaml, none, none⟩
    let io₁ : Io := ⟨⟨1, by decide⟩, ⟨1, by decide⟩, yaml, none, none⟩
    let ops : List (Call × Io) := [(.alloc (newApplication k), io₀), (.batchedWrite 0, io₀)]
    Clocked (ops ++ [(.batchedWrite 0, io₁)]) ∧
    saves defaultBatchWriteInterval (init cluster) ops = [⟨k, io₀.now, true⟩] ∧
    let w := (init cluster).run defaultBatchWriteInterval ops
    (w.batchedWrite defaultBatchWriteInterval io₁ 0).1 = w ∧
    (w.batchedWrite defaultBatchWriteInterval io₁ 0 =
      if ∀ sv ∈ saves defaultBatchWriteInterval (init cluster) ops,
          sv.name = (w.deref 0).name → defaultBatchWriteInterval < (io₁.checkedAt.ns : Int) - sv.time.ns
      then w.writeOrKeep io₁ 0 else (w, none)) ∧
    (∀ e, w.write io₁ 0 = .error e →
      (w.batchedWrite defaultBatchWriteInterval io₁ 0).1.map.lastWriteTimes = w.map.lastWriteTimes) ∧
    ∀ name, ((saves defaultBatchWriteInterval (init cluster) (ops ++ [(.batchedWrite 0, io₁)])).filter
      fun sv => sv.batched ∧ sv.name = name).Pairwise
        fun s₁ s₂ => defaultBatchWriteInterval < (s₂.time.ns : Int) - s₁.time.ns := by
  intro k cluster yaml io₀ io₁ ops
  have hclock : Clocked (ops ++ [(.batchedWrite 0, io₁)]) := by
    simp [Clocked, Io.readings, ops, io₀, io₁, Time.le_def]
  have hsaves : saves defaultBatchWriteInterval (init cluster) ops = [⟨k, io₀.now, true⟩] := rfl
  have hlaw := batchedWrite_writes_iff_no_recent_save defaultBatchWriteInterval cluster ops 0 io₁ hclock
  have hname : ((init cluster).run defaultBatchWriteInterval ops).deref 0 = newApplication k := rfl
  have hrecent : ¬ ∀ sv ∈ saves defaultBatchWriteInterval (init cluster) ops,
      sv.name = (((init cluster).run defaultBatchWriteInterval ops).deref 0).name →
        defaultBatchWriteInterval < (io₁.checkedAt.ns : Int) - sv.time.ns := by
    rw [hsaves, hname]
    simp [io₀, io₁, newApplication, defaultBatchWriteInterval]
  refine ⟨hclock, hsaves, congrArg Prod.fst (hlaw.1.trans (if_neg hrecent)), hlaw⟩

end AbnStore
