import AbnStore.Basic

/-!
# Application keys and the secrets they are persisted in

Model of `splitApplicationKey`, `nameFromKey`, `secretNameFromKey` and `namespaceFromKey`
(`applicationmap.go:269-297`). An application key of the form `namespace/name` names the secret
`name-metrics` in `namespace`, which `readFromSecret` reads and `Write` updates.

* `strings.Split(applicationKey, "/")` is `split` on the key's characters. Go splits bytes, but
  `/` is one byte and is no part of any other character's UTF-8 encoding, so the pieces are the
  same. `pieces` gives the first piece apart from the others, so that `split` is never empty, as
  Go's is not.
* `splitApplicationKey` takes the first two pieces when there are at least two, and otherwise
  `default` and the whole key. Pieces after the second are dropped.

Results:
* `keys_share_secret`: the keys `a/b/c` and `a/b/d` are distinct, both contain a `/`, and name the
  one secret `a/b-metrics`.
* `secret_eq_iff_pieces`: two keys that contain a `/` name the same secret iff their first two
  pieces agree; two keys of the documented form, with exactly one `/`, name the same secret only
  when they are equal.
* `key_without_slash_shares_secret`: a key `k` without a `/` is in the namespace `default`, so it
  names the secret of the distinct key `default/k`.
* `splitApplicationKey_join` and `join_splitApplicationKey`, the round trips: a namespace and a
  name without a `/`, joined by one, split back into themselves; the namespace and name of any key
  hold no `/`, and join back into the key iff it has exactly one.
-/

namespace AbnStore

/-- The pieces of a string between its slashes: the first one, and the others in order. -/
def pieces : List Char → List Char × List (List Char)
  | [] => ([], [])
  | c :: cs =>
    if c = '/' then ([], (pieces cs).1 :: (pieces cs).2) else (c :: (pieces cs).1, (pieces cs).2)

/-- `strings.Split(s, "/")`. -/
def split (s : List Char) : List (List Char) := (pieces s).1 :: (pieces s).2

/-- `splitApplicationKey`: the namespace and name of a key `namespace/name`. -/
def splitApplicationKey (applicationKey : String) : String × String :=
  match (split applicationKey.data).map String.mk with
  | ns :: name :: _ => (ns, name)
  | names => ("default", names.headD "")

/-- `nameFromKey`. -/
def nameFromKey (applicationKey : String) : String := (splitApplicationKey applicationKey).2

/-- `secretNameFromKey`: the name of the secret that persists an application. -/
def secretNameFromKey (applicationKey : String) : String := nameFromKey applicationKey ++ secretPostfix

/-- `namespaceFromKey`. -/
def namespaceFromKey (applicationKey : String) : String := (splitApplicationKey applicationKey).1

/-! ## Pieces -/

/-- Putting the slashes back. -/
def unsplit (p : List Char × List (List Char)) : List Char := p.1 ++ p.2.flatMap ('/' :: ·)

theorem unsplit_pieces : ∀ cs : List Char, unsplit (pieces cs) = cs
  | [] => rfl
  | c :: cs => by
    have ih := unsplit_pieces cs
    unfold unsplit at ih ⊢
    by_cases hc : c = '/' <;> simp [pieces, hc, ih]

theorem length_pieces : ∀ cs : List Char, (pieces cs).2.length = cs.count '/'
  | [] => rfl
  | c :: cs => by
    by_cases hc : c = '/'
    · simp [pieces, hc, length_pieces cs]
    · simp [pieces, hc, length_pieces cs, List.count_cons, Ne.symm hc]

theorem pieces_ne_nil_iff (cs : List Char) : (pieces cs).2 ≠ [] ↔ '/' ∈ cs := by
  rw [Ne, ← List.length_eq_zero, length_pieces, List.count_eq_zero, not_not]

theorem pieces_of_not_mem {cs : List Char} (h : '/' ∉ cs) : pieces cs = (cs, []) := by
  have h2 : (pieces cs).2 = [] := not_not.mp (mt (pieces_ne_nil_iff cs).mp h)
  have h1 := unsplit_pieces cs
  rw [unsplit, h2] at h1
  exact Prod.ext (by simpa using h1) h2

theorem pieces_append_slash {p : List Char} (h : '/' ∉ p) (cs : List Char) :
    pieces (p ++ '/' :: cs) = (p, (pieces cs).1 :: (pieces cs).2) := by
  induction p with
  | nil => simp [pieces]
  | cons c p ih =>
    have hc : c ≠ '/' := fun e => h (e ▸ List.mem_cons_self _ _)
    simp [pieces, hc, ih (fun hm => h (List.mem_cons_of_mem _ hm))]

/-! ## Keys without a slash -/

theorem splitApplicationKey_of_not_mem {k : String} (h : '/' ∉ k.data) :
    splitApplicationKey k = ("default", k) := by
  simp [splitApplicationKey, split, pieces_of_not_mem h]

theorem splitApplicationKey_default {k : String} (h : '/' ∉ k.data) :
    splitApplicationKey ("default/" ++ k) = ("default", k) := by
  have hd : ("default/" ++ k).data = "default".data ++ '/' :: k.data := by
    simp only [String.data_append]; rfl
  rw [splitApplicationKey, split, hd, @pieces_append_slash "default".data (by decide) k.data,
    pieces_of_not_mem h]
  rfl

/-- **A key without a slash is in `default`**, so it names the secret of the distinct key
`default/k`. -/
theorem key_without_slash_shares_secret {k : String} (h : '/' ∉ k.data) :
    "default/" ++ k ≠ k ∧
    (namespaceFromKey k, secretNameFromKey k) =
      (namespaceFromKey ("default/" ++ k), secretNameFromKey ("default/" ++ k)) := by
  refine ⟨fun e => ?_, ?_⟩
  · have hl := congrArg String.length e
    simp only [String.length_append, Nat.add_left_eq_self] at hl
    exact absurd hl (by decide)
  · simp [namespaceFromKey, secretNameFromKey, nameFromKey, splitApplicationKey_of_not_mem h,
      splitApplicationKey_default h]

/-- The keys `application` and `default/application`. -/
theorem key_without_slash_shares_secret_application :
    '/' ∉ "application".data ∧ "default/" ++ "application" ≠ "application" ∧
    (namespaceFromKey "application", secretNameFromKey "application") =
      (namespaceFromKey ("default/" ++ "application"),
        secretNameFromKey ("default/" ++ "application")) :=
  ⟨by decide, key_without_slash_shares_secret (by decide)⟩

/-! ## Keys with a slash -/

theorem splitApplicationKey_of_pieces {applicationKey : String} {name : List Char}
    {rest : List (List Char)} (h : (pieces applicationKey.data).2 = name :: rest) :
    splitApplicationKey applicationKey = (⟨(pieces applicationKey.data).1⟩, ⟨name⟩) := by
  simp [splitApplicationKey, split, h]

theorem secretNameFromKey_eq_iff {k₁ k₂ : String} :
    secretNameFromKey k₁ = secretNameFromKey k₂ ↔ nameFromKey k₁ = nameFromKey k₂ := by
  simp only [secretNameFromKey, String.ext_iff, String.data_append, List.append_cancel_right_eq]

/-- The secret of a key with a slash: the first two pieces. -/
theorem secret_of_pieces {k : String} {name : List Char} {rest : List (List Char)}
    (h : (pieces k.data).2 = name :: rest) :
    namespaceFromKey k = ⟨(pieces k.data).1⟩ ∧ nameFromKey k = ⟨name⟩ := by
  simp [namespaceFromKey, nameFromKey, splitApplicationKey_of_pieces h]

/-- **Keys with more than one slash collide.** -/
theorem keys_share_secret :
    ("a/b/c" : String) ≠ "a/b/d" ∧ '/' ∈ "a/b/c".data ∧ '/' ∈ "a/b/d".data ∧
      (namespaceFromKey "a/b/c", secretNameFromKey "a/b/c") =
        (namespaceFromKey "a/b/d", secretNameFromKey "a/b/d") := by
  decide

theorem secret_eq_iff_of_pieces {k₁ k₂ : String} {n₁ n₂ : List Char} {r₁ r₂ : List (List Char)}
    (e₁ : (pieces k₁.data).2 = n₁ :: r₁) (e₂ : (pieces k₂.data).2 = n₂ :: r₂) :
    (namespaceFromKey k₁, secretNameFromKey k₁) = (namespaceFromKey k₂, secretNameFromKey k₂) ↔
      (pieces k₁.data).1 = (pieces k₂.data).1 ∧ n₁ = n₂ := by
  rw [Prod.mk.injEq, secretNameFromKey_eq_iff, (secret_of_pieces e₁).1, (secret_of_pieces e₁).2,
    (secret_of_pieces e₂).1, (secret_of_pieces e₂).2]
  simp only [String.ext_iff]

/-- A key with one slash is its two pieces. -/
theorem pieces_of_count_one {k : String} (h : k.data.count '/' = 1) :
    ∃ name, (pieces k.data).2 = [name] := by
  have hl := length_pieces k.data
  rw [h] at hl
  exact List.length_eq_one.mp hl

/-- Keys of the form `namespace/name` that name one secret are equal. -/
theorem eq_of_secret_eq {k₁ k₂ : String} (c₁ : k₁.data.count '/' = 1) (c₂ : k₂.data.count '/' = 1)
    (heq : (namespaceFromKey k₁, secretNameFromKey k₁) =
      (namespaceFromKey k₂, secretNameFromKey k₂)) : k₁ = k₂ := by
  obtain ⟨n₁, e₁⟩ := pieces_of_count_one c₁
  obtain ⟨n₂, e₂⟩ := pieces_of_count_one c₂
  obtain ⟨hns, hn⟩ := (secret_eq_iff_of_pieces e₁ e₂).mp heq
  rw [String.ext_iff, ← unsplit_pieces k₁.data, ← unsplit_pieces k₂.data, unsplit, unsplit, e₁, e₂,
    hns, hn]

/-- **A key names its secret by its first two pieces**, so keys of the form `namespace/name`
name distinct secrets. -/
theorem secret_eq_iff_pieces {k₁ k₂ : String} (h₁ : '/' ∈ k₁.data) (h₂ : '/' ∈ k₂.data) :
    ((namespaceFromKey k₁, secretNameFromKey k₁) = (namespaceFromKey k₂, secretNameFromKey k₂) ↔
      (split k₁.data).take 2 = (split k₂.data).take 2) ∧
    (k₁.data.count '/' = 1 → k₂.data.count '/' = 1 →
      (namespaceFromKey k₁, secretNameFromKey k₁) = (namespaceFromKey k₂, secretNameFromKey k₂) →
      k₁ = k₂) := by
  obtain ⟨n₁, r₁, e₁⟩ := List.exists_cons_of_ne_nil ((pieces_ne_nil_iff _).mpr h₁)
  obtain ⟨n₂, r₂, e₂⟩ := List.exists_cons_of_ne_nil ((pieces_ne_nil_iff _).mpr h₂)
  exact ⟨by simp [secret_eq_iff_of_pieces e₁ e₂, split, e₁, e₂], eq_of_secret_eq⟩

/-- Two keys of the form `namespace/name`. -/
theorem secret_eq_iff_pieces_two_keys :
    '/' ∈ "default/application".data ∧ '/' ∈ "default/other".data ∧
    (((namespaceFromKey "default/application", secretNameFromKey "default/application") =
        (namespaceFromKey "default/other", secretNameFromKey "default/other") ↔
      (split "default/application".data).take 2 = (split "default/other".data).take 2) ∧
    ("default/application".data.count '/' = 1 → "default/other".data.count '/' = 1 →
      (namespaceFromKey "default/application", secretNameFromKey "default/application") =
        (namespaceFromKey "default/other", secretNameFromKey "default/other") →
      ("default/application" : String) = "default/other")) :=
  ⟨by decide, by decide, secret_eq_iff_pieces (by decide) (by decide)⟩

/-! ## Round trips -/

/-- No piece holds a slash. -/
theorem not_mem_pieces : ∀ cs : List Char, '/' ∉ (pieces cs).1 ∧ ∀ p ∈ (pieces cs).2, '/' ∉ p
  | [] => by simp [pieces]
  | c :: cs => by
    obtain ⟨h₁, h₂⟩ := not_mem_pieces cs
    by_cases hc : c = '/'
    · simp only [pieces, hc, if_true, List.mem_cons]
      exact ⟨List.not_mem_nil _, fun p hp => hp.elim (· ▸ h₁) (h₂ p)⟩
    · simp only [pieces, hc, if_false, List.mem_cons, not_or]
      exact ⟨⟨Ne.symm hc, h₁⟩, h₂⟩

/-- The namespace and the name of a key hold no slash. -/
theorem not_mem_splitApplicationKey (k : String) :
    '/' ∉ (namespaceFromKey k).data ∧ '/' ∉ (nameFromKey k).data := by
  obtain ⟨h₁, h₂⟩ := not_mem_pieces k.data
  cases hp : (pieces k.data).2 with
  | nil =>
    have hs : splitApplicationKey k = ("default", ⟨(pieces k.data).1⟩) := by
      simp [splitApplicationKey, split, hp]
    simp only [namespaceFromKey, nameFromKey, hs]
    exact ⟨by decide, h₁⟩
  | cons name rest =>
    rw [(secret_of_pieces hp).1, (secret_of_pieces hp).2]
    exact ⟨h₁, h₂ name (hp ▸ List.mem_cons_self _ _)⟩

/-- **Split after join.** A namespace and a name without a slash, joined by one, split back into
themselves. -/
theorem splitApplicationKey_join {ns name : String} (h₁ : '/' ∉ ns.data) (h₂ : '/' ∉ name.data) :
    splitApplicationKey (ns ++ "/" ++ name) = (ns, name) := by
  have hd : (ns ++ "/" ++ name).data = ns.data ++ '/' :: name.data := by simp
  simp [splitApplicationKey, split, hd, pieces_append_slash h₁, pieces_of_not_mem h₂]

/-- The namespace `default` and the name `application`. -/
theorem splitApplicationKey_join_default :
    '/' ∉ "default".data ∧ '/' ∉ "application".data ∧
    splitApplicationKey ("default" ++ "/" ++ "application") = ("default", "application") :=
  ⟨by decide, by decide, splitApplicationKey_join (by decide) (by decide)⟩

/-- **Join after split.** The namespace and the name of any key hold no slash, and joined by one
they give the key back iff it has exactly one slash. -/
theorem join_splitApplicationKey (k : String) :
    '/' ∉ (namespaceFromKey k).data ∧ '/' ∉ (nameFromKey k).data ∧
    (namespaceFromKey k ++ "/" ++ nameFromKey k = k ↔ k.data.count '/' = 1) := by
  obtain ⟨h₁, h₂⟩ := not_mem_splitApplicationKey k
  refine ⟨h₁, h₂, fun h => ?_, fun h => ?_⟩
  · rw [← h]
    simp [List.count_eq_zero_of_not_mem h₁, List.count_eq_zero_of_not_mem h₂]
  · obtain ⟨name, hp⟩ := pieces_of_count_one h
    rw [(secret_of_pieces hp).1, (secret_of_pieces hp).2, String.ext_iff]
    conv_rhs => rw [← unsplit_pieces k.data]
    simp [unsplit, hp]

end AbnStore
