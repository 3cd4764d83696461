import Mathlib.Data.List.Nodup

/-!
# Insertion-ordered tables with a unique key

A table is a list of key-value entries in which no key occurs twice: the in-memory picture of a
database table under a uniqueness constraint, read back in insertion order. The constraint is a
field, so a table that breaks it cannot be built, and every operation keeps it. `find` is the
lookup by key, `modify` rewrites the value of one key, `mapValues` rewrites all values, and
`insertNew` appends an entry whose key is not present.

The lookup equations `find_modify`, `find_mapValues` and `find_insertNew` are the interface: later
proofs compute with `find` and never look at the entries.
-/

namespace ContentGenerator.Lib

open List Option Prod

/-- A list of entries in which no key occurs twice. -/
structure KeyedTable (K V : Type*) where
  entries : List (K × V)
  nodupKeys : (entries.map fst).Nodup

namespace KeyedTable

variable {K V : Type*} [DecidableEq K]

def find (t : KeyedTable K V) (k : K) : Option V :=
  (t.entries.find? fun entry ↦ entry.1 = k).map snd

/-- Rewrite every value; the keys and their order stay. -/
def mapValues (t : KeyedTable K V) (f : K → V → V) : KeyedTable K V where
  entries := t.entries.map fun entry ↦ (entry.1, f entry.1 entry.2)
  nodupKeys := by
    rw [List.map_map]
    exact t.nodupKeys

def modify (t : KeyedTable K V) (k : K) (f : V → V) : KeyedTable K V :=
  t.mapValues fun key value ↦ if key = k then f value else value

def single (k : K) (v : V) : KeyedTable K V := ⟨[(k, v)], nodup_singleton k⟩

/-- Append an entry under a new key; a key that is present is left as it is. -/
def insertNew (t : KeyedTable K V) (k : K) (v : V) : KeyedTable K V :=
  if h : k ∈ t.entries.map fst then t
  else
    { entries := t.entries ++ [(k, v)]
      nodupKeys := by
        rw [map_append]
        refine List.Nodup.append t.nodupKeys (nodup_singleton _) ?_
        intro key hkey hnew
        rw [map_cons, map_nil, mem_singleton] at hnew
        rw [hnew] at hkey
        exact h hkey }

theorem find_eq_some_iff (t : KeyedTable K V) (k : K) (v : V) :
    t.find k = some v ↔ (k, v) ∈ t.entries := by
  obtain ⟨entries, hnodup⟩ := t
  unfold find
  induction entries with
  | nil => simp
  | cons entry rest ih =>
    rw [map_cons, nodup_cons] at hnodup
    by_cases hkey : entry.1 = k
    · rw [find?_cons_of_pos (by simpa using hkey)]
      simp only [map_some, Option.some.injEq, mem_cons]
      constructor
      · rintro rfl
        exact .inl (Prod.ext hkey.symm rfl)
      · rintro (rfl | hmem)
        · rfl
        · exact (hnodup.1 (hkey ▸ List.mem_map_of_mem (f := fst) hmem)).elim
    · rw [find?_cons_of_neg (by simpa using hkey)]
      refine (ih hnodup.2).trans ?_
      simp only [mem_cons]
      refine (or_iff_right ?_).symm
      rintro rfl
      exact hkey rfl

theorem find_eq_none_iff (t : KeyedTable K V) (k : K) :
    t.find k = none ↔ k ∉ t.entries.map fst := by
  simp only [find, map_eq_none_iff, find?_eq_none, decide_eq_true_eq, List.mem_map,
    not_exists, not_and]

@[simp] theorem find_mapValues (t : KeyedTable K V) (f : K → V → V) (k : K) :
    (t.mapValues f).find k = (t.find k).map (f k) := by
  cases hfind : t.find k with
  | none =>
    rw [find_eq_none_iff] at hfind
    rw [map_none, find_eq_none_iff]
    simpa [mapValues] using hfind
  | some v =>
    rw [find_eq_some_iff] at hfind
    rw [map_some, find_eq_some_iff]
    exact List.mem_map_of_mem (f := fun entry : K × V ↦ (entry.1, f entry.1 entry.2)) hfind

theorem find_modify (t : KeyedTable K V) (k : K) (f : V → V) (j : K) :
    (t.modify k f).find j = if j = k then (t.find j).map f else t.find j := by
  unfold modify
  rw [find_mapValues]
  by_cases hj : j = k
  · simp [hj]
  · cases t.find j <;> simp [hj]

@[simp] theorem find_modify_self (t : KeyedTable K V) (k : K) (f : V → V) :
    (t.modify k f).find k = (t.find k).map f := by
  rw [find_modify, if_pos rfl]

theorem find_modify_of_ne (t : KeyedTable K V) {k j : K} (f : V → V) (h : j ≠ k) :
    (t.modify k f).find j = t.find j := by
  rw [find_modify, if_neg h]

omit [DecidableEq K] in
theorem ext_entries {t t' : KeyedTable K V} (h : t.entries = t'.entries) : t = t' := by
  obtain ⟨entries, _⟩ := t
  obtain ⟨entries', _⟩ := t'
  obtain rfl : entries = entries' := h
  rfl

/-- Two rewrites of one key are one rewrite. -/
theorem modify_modify (t : KeyedTable K V) (k : K) (f g : V → V) :
    (t.modify k f).modify k g = t.modify k fun v ↦ g (f v) := by
  refine ext_entries ?_
  simp only [modify, mapValues, List.map_map]
  refine map_congr_left fun entry _ ↦ ?_
  by_cases hkey : entry.1 = k <;> simp [hkey]

/-- A rewrite looks only at the value it rewrites. -/
theorem modify_congr (t : KeyedTable K V) {k : K} {f g : V → V}
    (h : ∀ v, t.find k = some v → f v = g v) : t.modify k f = t.modify k g := by
  refine ext_entries ?_
  simp only [modify, mapValues]
  refine map_congr_left fun entry hentry ↦ ?_
  by_cases hkey : entry.1 = k
  · have hfind : t.find k = some entry.2 := by
      rw [find_eq_some_iff, ← hkey]
      exact hentry
    simp [hkey, h entry.2 hfind]
  · simp [hkey]

theorem find_insertNew (t : KeyedTable K V) (k : K) (v : V) (j : K) :
    (t.insertNew k v).find j = if j = k ∧ t.find k = none then some v else t.find j := by
  unfold insertNew
  by_cases hpresent : k ∈ t.entries.map fst
  · rw [dif_pos hpresent, if_neg]
    rintro ⟨-, hnone⟩
    exact (find_eq_none_iff t k).mp hnone hpresent
  · rw [dif_neg hpresent]
    have habsent : t.find k = none := (find_eq_none_iff t k).mpr hpresent
    by_cases hj : j = k
    · rw [if_pos ⟨hj, habsent⟩, find_eq_some_iff]
      exact mem_append_right _ (by rw [hj]; exact mem_singleton_self _)
    · rw [if_neg fun h ↦ hj h.1]
      ext w
      rw [find_eq_some_iff, find_eq_some_iff, mem_append, mem_singleton]
      refine or_iff_left ?_
      intro h
      exact hj (congrArg fst h)

theorem entries_insertNew (t : KeyedTable K V) {k : K} (v : V) (h : t.find k = none) :
    (t.insertNew k v).entries = t.entries ++ [(k, v)] := by
  unfold insertNew
  rw [dif_neg ((find_eq_none_iff t k).mp h)]

theorem find_insertNew_self (t : KeyedTable K V) {k : K} (v : V) (h : t.find k = none) :
    (t.insertNew k v).find k = some v := by
  rw [find_insertNew, if_pos ⟨rfl, h⟩]

theorem find_insertNew_of_ne (t : KeyedTable K V) {k j : K} (v : V) (h : j ≠ k) :
    (t.insertNew k v).find j = t.find j := by
  rw [find_insertNew, if_neg fun hj ↦ h hj.1]

theorem find_foldl_insertNew (l : List (K × V)) (t : KeyedTable K V) (j : K) :
    (l.foldl (fun t entry ↦ t.insertNew entry.1 entry.2) t).find j =
      (t.find j).or ((l.find? fun entry ↦ entry.1 = j).map snd) := by
  induction l generalizing t with
  | nil => simp
  | cons entry rest ih =>
    rw [foldl_cons, ih, find_insertNew]
    by_cases hj : j = entry.1
    · subst hj
      cases hold : t.find entry.1 <;> simp
    · rw [if_neg fun h ↦ hj h.1, find?_cons_of_neg (by simpa using Ne.symm hj)]

/-- Store a value under a key, whether it is present or not. -/
def put (t : KeyedTable K V) (k : K) (v : V) : KeyedTable K V := (t.modify k fun _ ↦ v).insertNew k v

theorem find_put (t : KeyedTable K V) (k : K) (v : V) (j : K) :
    (t.put k v).find j = if j = k then some v else t.find j := by
  unfold put
  rw [find_insertNew, find_modify_self]
  by_cases hj : j = k
  · subst hj
    rw [if_pos rfl]
    cases hfind : t.find j with
    | none => rw [if_pos ⟨rfl, rfl⟩]
    | some old => rw [if_neg fun h ↦ absurd h.2 nofun, find_modify_self, hfind, map_some]
  · rw [if_neg hj, if_neg fun h ↦ hj h.1, find_modify_of_ne t _ hj]

/-- The entries that pass a test. -/
def filter (t : KeyedTable K V) (p : K → V → Bool) : KeyedTable K V where
  entries := t.entries.filter fun entry ↦ p entry.1 entry.2
  nodupKeys := t.nodupKeys.sublist (filter_sublist.map fst)

theorem find_filter (t : KeyedTable K V) (p : K → V → Bool) (k : K) :
    (t.filter p).find k = (t.find k).filter (p k) := by
  ext v
  rw [find_eq_some_iff, filter_eq_some_iff, find_eq_some_iff]
  exact mem_filter

def nextKey (t : KeyedTable ℕ V) : ℕ := (t.entries.map fst).foldr max 0 + 1

theorem lt_nextKey {t : KeyedTable ℕ V} {k : ℕ} (h : k ∈ t.entries.map fst) : k < t.nextKey := by
  unfold nextKey
  generalize t.entries.map fst = keys at h
  refine Nat.lt_succ_of_le ?_
  induction keys with
  | nil => simp at h
  | cons key rest ih =>
    rw [foldr_cons]
    rcases mem_cons.mp h with rfl | h
    · exact Nat.le_max_left k _
    · exact Nat.le_trans (ih h) (Nat.le_max_right key _)

theorem find_nextKey (t : KeyedTable ℕ V) : t.find t.nextKey = none :=
  (find_eq_none_iff t _).mpr fun h ↦ Nat.lt_irrefl _ (lt_nextKey h)

theorem ne_nextKey {t : KeyedTable ℕ V} {k : ℕ} {v : V} (h : t.find k = some v) : k ≠ t.nextKey := by
  rintro rfl
  exact absurd (h.symm.trans t.find_nextKey) nofun

end KeyedTable

end ContentGenerator.Lib
