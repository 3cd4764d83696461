import ContentGenerator.Workflows.Conservation
import ContentGenerator.Workflows.GraphSchema

/-!
# Keys of rows

What tells the rows of a run apart: the iteration keys of the items of a fan-out, the execution key and the
key under which `node_outputs` files an output.

The iteration keys are pairwise distinct exactly when no suffix makes a base key of the list out of another one,
and the suffixes of one base key are told apart by the digits that fit (`keysSound_iff`). The other two are
joined with ':' and '#', which ids and keys may hold as well: `toldApart_iff` says which two rows share a key.
-/

namespace ContentGenerator.Workflows

open Lib List Prod Nat
open String (toList_append toList_inj)

/-! ### Iteration keys -/

/-- What `unique_iteration_keys` should return for a list of items. -/
structure KeysSound (render : Json → String) (items : List Json) : Prop where
  aligned : (uniqueIterationKeys render items).map snd = items
  distinct : ((uniqueIterationKeys render items).map fst).Nodup
  bounded : ∀ keyed ∈ uniqueIterationKeys render items, keyed.1 ≠ "" ∧ keyed.1.length ≤ 128
  stable : ∀ later, uniqueIterationKeys render items <+: uniqueIterationKeys render (items ++ later)

variable {render : Json → String} {items : List Json}

theorem length_pyTake_le (n : ℕ) (s : String) : (pyTake n s).length ≤ n := by
  rw [pyTake, String.length_ofList]
  exact length_take_le n _

theorem keys_map_fst : (uniqueIterationKeys render items).map fst =
    ofFn fun i : Fin items.length ↦
      keyAt (baseKeysFrom render 0 items) (i.cast (length_baseKeysFrom render 0 items).symm) := by
  rw [uniqueIterationKeys_eq_ofFn, map_ofFn]
  rfl

theorem keys_nodup_iff : ((uniqueIterationKeys render items).map fst).Nodup ↔
    DistinctKeys (baseKeysFrom render 0 items) := by
  rw [keys_map_fst, nodup_ofFn, ← keyAt_injective_iff]
  constructor
  · intro hinj i j heq
    have hcast : i.cast (length_baseKeysFrom render 0 items) =
        j.cast (length_baseKeysFrom render 0 items) := hinj (by simpa using heq)
    simpa using hcast
  · intro hinj i j heq
    simpa using hinj heq

/-- A base key is the key of its first place. -/
theorem mem_keys_of_mem_baseKeys {base : String} (hbase : base ∈ baseKeysFrom render 0 items) :
    base ∈ (uniqueIterationKeys render items).map fst := by
  have hlt := idxOf_lt_length_of_mem hbase
  have hget : (baseKeysFrom render 0 items).get ⟨_, hlt⟩ = base := idxOf_get hlt
  have hfirst : occurrence (baseKeysFrom render 0 items) ⟨_, hlt⟩ = 0 := by
    rw [occurrence, hget]
    exact count_eq_zero.mpr fun hmem ↦ absurd hmem (by
      rw [mem_take_iff_idxOf_lt hbase]
      exact lt_irrefl _)
  rw [keys_map_fst]
  refine (mem_ofFn' _ _).mpr ⟨⟨_, (length_baseKeysFrom render 0 items) ▸ hlt⟩, ?_⟩
  change keyAt (baseKeysFrom render 0 items) ⟨_, hlt⟩ = base
  rw [keyAt, hfirst, hget]
  rfl

/-- The keys do not depend on what comes later. -/
theorem uniqueKeysFrom_append (index : ℕ) (seen : List String) (items later : List Json) :
    uniqueKeysFrom render index seen items <+: uniqueKeysFrom render index seen (items ++ later) := by
  induction items generalizing index seen with
  | nil => exact nil_prefix
  | cons item rest ih => exact (prefix_cons_inj _).mpr (ih _ _)

/-! #### Base keys and their suffixes -/

/-- The repeated base keys of a list do not meet: with a suffix they are no base key of the list, and their
suffixes differ in the digits that fit into 128 characters. -/
structure RepeatsApart (bases : List String) : Prop where
  free : ∀ base ∈ bases, ∀ n, 2 ≤ n → n ≤ bases.count base → pyTake 128 s!"{base}-{n}" ∉ bases
  digits : ∀ base ∈ bases, ∀ n m, 2 ≤ n → n < m → m ≤ bases.count base →
    n.repr.toList.take (127 - base.length) ≠ m.repr.toList.take (127 - base.length)

/-- An item at a position of more than 127 digits has a text of its own. -/
def IndexKeysFit (render : Json → String) (items : List Json) : Prop :=
  ∀ index item, items[index]? = some item → 10 ^ 127 ≤ index →
    iterationKeyForItem render item index ≠ s!"i{index}"

section Suffixes

variable {bases : List String} {base other : String} {n m : ℕ}

theorem toList_suffixed (base : String) (n : ℕ) :
    (pyTake 128 s!"{base}-{n}").toList = (base.toList ++ '-' :: n.repr.toList).take 128 := by
  rw [pyTake, String.toList_ofList]
  change ((base ++ "-" ++ n.repr).toList).take 128 = _
  rw [toList_append, toList_append, List.append_assoc]
  rfl

/-- The suffixes of a base key are cut to the digits that fit. -/
theorem suffixed_eq_iff (hshort : base.length ≤ 127) :
    pyTake 128 s!"{base}-{n}" = pyTake 128 s!"{base}-{m}" ↔
      n.repr.toList.take (127 - base.length) = m.repr.toList.take (127 - base.length) := by
  have hlength : base.toList.length ≤ 127 := by rwa [String.length_toList]
  have hrest : 128 - base.toList.length = (127 - base.length) + 1 := by
    rw [String.length_toList]
    omega
  rw [← toList_inj, toList_suffixed, toList_suffixed, take_append, take_append, append_cancel_left_eq, hrest,
    take_succ_cons, take_succ_cons, cons_inj_right]

/-- A longer base key keeps its separator where the shorter one has a digit. -/
theorem suffixed_ne_of_length_lt (hlt : base.length < other.length) (hshort : other.length ≤ 127) :
    pyTake 128 s!"{base}-{n}" ≠ pyTake 128 s!"{other}-{m}" := by
  intro heq
  have hlists : (pyTake 128 s!"{base}-{n}").toList[other.length]? =
      (pyTake 128 s!"{other}-{m}").toList[other.length]? := by rw [heq]
  rw [toList_suffixed, toList_suffixed, getElem?_take_of_lt (by omega), getElem?_take_of_lt (by omega),
    getElem?_append_right (by rw [String.length_toList]; omega),
    getElem?_append_right (by rw [String.length_toList]), String.length_toList, String.length_toList, Nat.sub_self,
    getElem?_cons_zero] at hlists
  obtain ⟨place, hplace⟩ : ∃ place, other.length - base.length = place + 1 :=
    ⟨other.length - base.length - 1, by omega⟩
  rw [hplace, getElem?_cons_succ] at hlists
  have hdigit := mem_of_getElem? hlists
  rw [toList_repr] at hdigit
  exact absurd (isDigit_of_mem_toDigits (by decide) (by decide) hdigit) (by decide)

/-- Different base keys stay different with a suffix. -/
theorem suffixed_ne (hne : base ≠ other) (hbase : base.length ≤ 127) (hother : other.length ≤ 127) :
    pyTake 128 s!"{base}-{n}" ≠ pyTake 128 s!"{other}-{m}" := by
  rcases lt_trichotomy base.length other.length with hlt | heq | hgt
  · exact suffixed_ne_of_length_lt hlt hother
  · intro hsame
    rw [← toList_inj, toList_suffixed, toList_suffixed] at hsame
    have hprefix := congrArg (take base.length) hsame
    rw [take_take, take_take, min_eq_left (by omega), take_append_of_le_length (by rw [String.length_toList]),
      take_append_of_le_length (by rw [String.length_toList, heq]), take_of_length_le (by rw [String.length_toList]),
      take_of_length_le (by rw [String.length_toList, heq])] at hprefix
    exact hne (toList_inj.mp hprefix)
  · exact (suffixed_ne_of_length_lt hgt hbase).symm

/-- A base key of 128 characters loses its suffix. -/
theorem RepeatsApart.length_lt (h : RepeatsApart bases) (hshort : base.length ≤ 128) (hbase : base ∈ bases)
    (htwo : 2 ≤ n) (hcount : n ≤ bases.count base) : base.length ≤ 127 := by
  by_contra hlong
  refine h.free base hbase n htwo hcount ?_
  have hsame : pyTake 128 s!"{base}-{n}" = base := by
    rw [← toList_inj, toList_suffixed, take_append_of_le_length (by rw [String.length_toList]; omega)]
    exact take_of_length_le (by rw [String.length_toList]; omega)
  rwa [hsame]

/-- The places of a base key, by how often it has occurred before. -/
theorem exists_occurrence (h : n < bases.count base) :
    ∃ i : Fin bases.length, bases.get i = base ∧ occurrence bases i = n := by
  have hlt : bases.idxOfNth base n < bases.length := idxOfNth_lt_length_of_lt_count h
  have hget : bases[bases.idxOfNth base n] = base := getElem_idxOfNth_eq
  refine ⟨⟨bases.idxOfNth base n, hlt⟩, hget, ?_⟩
  unfold occurrence
  rw [get_eq_getElem, hget, ← countBefore_eq_count_take, countBefore_idxOfNth_of_lt_count h]

theorem occurrence_lt_count (i : Fin bases.length) : occurrence bases i < bases.count (bases.get i) :=
  count_getElem_take_lt_count

/-- A later place of a base key counts the earlier one. -/
theorem occurrence_lt_of_lt {i j : Fin bases.length} (hlt : i < j) (hsame : bases.get i = bases.get j) :
    occurrence bases i < occurrence bases j := by
  have hcount := (take_sublist_take_left (l := bases) (Nat.succ_le_of_lt hlt)).count_le (bases.get i)
  rw [get_eq_getElem, count_getElem_take_succ] at hcount
  unfold occurrence
  rw [← hsame]
  exact Nat.lt_of_succ_le hcount

theorem keyAt_of_occurrence {i : Fin bases.length} (h : occurrence bases i ≠ 0) :
    keyAt bases i = pyTake 128 s!"{bases.get i}-{occurrence bases i + 1}" :=
  if_neg h

/-- The keys are pairwise distinct exactly when the repeats are apart. Assumes: base keys of at most 128
characters. -/
theorem distinctKeys_iff (hshort : ∀ base ∈ bases, base.length ≤ 128) :
    DistinctKeys bases ↔ RepeatsApart bases := by
  constructor
  · intro hdistinct
    have hplace : ∀ base n, 2 ≤ n → n ≤ bases.count base → ∃ i : Fin bases.length, bases.get i = base ∧
        occurrence bases i = n - 1 ∧ keyAt bases i = pyTake 128 s!"{base}-{n}" := by
      intro base n htwo hcount
      obtain ⟨i, hget, hbefore⟩ := exists_occurrence (show n - 1 < bases.count base by omega)
      refine ⟨i, hget, hbefore, ?_⟩
      rw [keyAt_of_occurrence (by omega), hbefore, hget, show n - 1 + 1 = n by omega]
    refine ⟨fun base _ n htwo hcount hmem ↦ ?_, fun base hbase n m htwo hlt hcount hdigits ↦ ?_⟩
    · obtain ⟨i, -, hbefore, hkey⟩ := hplace base n htwo hcount
      obtain ⟨j, hget, hfirst⟩ := exists_occurrence (count_pos_iff.mpr hmem)
      refine hdistinct i j (by omega) (fun heq ↦ ?_) ?_
      · rw [heq] at hbefore
        omega
      · rw [hkey, keyAt, hfirst, hget]
        rfl
    · obtain ⟨i, -, hbefore, hkey⟩ := hplace base n htwo (by omega)
      obtain ⟨j, -, hbefore', hkey'⟩ := hplace base m (by omega) hcount
      refine hdistinct i j (by omega) (fun heq ↦ ?_) ?_
      · rw [heq] at hbefore
        omega
      · rw [hkey, hkey']
        rcases Nat.lt_or_ge 127 base.length with hlong | hfits
        · -- both suffixes are cut off
          have hzero : 128 - base.toList.length = 0 := by
            rw [String.length_toList]
            omega
          rw [← toList_inj, toList_suffixed, toList_suffixed, take_append, take_append, hzero, take_zero, take_zero]
        · exact (suffixed_eq_iff hfits).mpr hdigits
  · intro h i j hrepeat hne heq
    have hbase := get_mem bases i
    have hcount := occurrence_lt_count i
    rw [keyAt_of_occurrence hrepeat] at heq
    by_cases hfirst : occurrence bases j = 0
    · refine h.free _ hbase _ (by omega) hcount ?_
      rw [heq, keyAt, hfirst]
      exact get_mem bases j
    have hbase' := get_mem bases j
    have hcount' := occurrence_lt_count j
    rw [keyAt_of_occurrence hfirst] at heq
    have hfits := h.length_lt (hshort _ hbase) hbase (by omega) hcount
    have hfits' := h.length_lt (hshort _ hbase') hbase' (by omega) hcount'
    by_cases hsame : bases.get i = bases.get j
    · rw [← hsame] at heq hcount'
      have hdigits := (suffixed_eq_iff hfits).mp heq
      rcases lt_or_gt_of_ne hne with hlt | hgt
      · have hbefore := occurrence_lt_of_lt hlt hsame
        exact h.digits _ hbase _ _ (by omega) (by omega) hcount' hdigits
      · have hbefore := occurrence_lt_of_lt hgt hsame.symm
        exact h.digits _ hbase _ _ (by omega) (by omega) hcount hdigits.symm
    · exact suffixed_ne hsame hfits hfits' heq

end Suffixes

/-- A base key fits into the column, unless it is made from a position of more than 127 digits. -/
theorem length_iterationKeyForItem_le_iff (render : Json → String) (item : Json) (index : ℕ) :
    (iterationKeyForItem render item index).length ≤ 128 ↔
      (10 ^ 127 ≤ index → iterationKeyForItem render item index ≠ s!"i{index}") := by
  have hindex : (s!"i{index}").length ≤ 128 ↔ index < 10 ^ 127 := by
    rw [← Nat.length_repr_le_iff (n := index) (k := 127) (by decide)]
    change ("i" ++ index.repr).length ≤ 128 ↔ _
    rw [String.length_append]
    change 1 + _ ≤ 128 ↔ _
    omega
  by_cases hkey : iterationKeyForItem render item index = s!"i{index}"
  · rw [hkey, hindex, ← not_le]
    exact ⟨fun hlt hle ↦ absurd hle hlt, fun h hle ↦ h hle rfl⟩
  · obtain ⟨text, -, htake⟩ := (iterationKeyForItem_cases render item index).resolve_left hkey
    exact iff_of_true (htake ▸ length_pyTake_le 128 _) fun _ ↦ hkey

theorem forall_mem_baseKeysFrom {p : String → Prop} (index : ℕ) :
    (∀ base ∈ baseKeysFrom render index items, p base) ↔
      ∀ place item, items[place]? = some item → p (iterationKeyForItem render item (index + place)) := by
  induction items generalizing index with
  | nil => simp [baseKeysFrom]
  | cons first rest ih =>
    rw [baseKeysFrom, forall_mem_cons, ih]
    constructor
    · rintro ⟨hfirst, hrest⟩ place item hitem
      cases place with
      | zero =>
        obtain rfl : first = item := by simpa using hitem
        exact hfirst
      | succ place =>
        have hp := hrest place item (by simpa using hitem)
        rwa [show index + (place + 1) = index + 1 + place by omega]
    · intro h
      refine ⟨h 0 first rfl, fun place item hitem ↦ ?_⟩
      have hp := h (place + 1) item (by simpa using hitem)
      rwa [show index + (place + 1) = index + 1 + place by omega] at hp

theorem indexKeysFit_iff : IndexKeysFit render items ↔
    ∀ base ∈ baseKeysFrom render 0 items, base.length ≤ 128 := by
  rw [forall_mem_baseKeysFrom]
  refine forall₂_congr fun index item ↦ forall_congr' fun _ ↦ ?_
  rw [Nat.zero_add, length_iterationKeyForItem_le_iff]

/-- The pairs are in order and the keys non-empty and independent of later items; they are pairwise
distinct and fit into the column exactly when the repeats are apart and the keys that are made from positions
fit. -/
theorem keysSound_iff : KeysSound render items ↔
    RepeatsApart (baseKeysFrom render 0 items) ∧ IndexKeysFit render items := by
  rw [indexKeysFit_iff]
  constructor
  · intro h
    have hshort : ∀ base ∈ baseKeysFrom render 0 items, base.length ≤ 128 := by
      intro base hbase
      obtain ⟨keyed, hkeyed, rfl⟩ := mem_map.mp (mem_keys_of_mem_baseKeys hbase)
      exact (h.bounded keyed hkeyed).2
    exact ⟨(distinctKeys_iff hshort).mp (keys_nodup_iff.mp h.distinct), hshort⟩
  · rintro ⟨hapart, hshort⟩
    refine ⟨?_, keys_nodup_iff.mpr ((distinctKeys_iff hshort).mpr hapart), fun keyed hkeyed ↦ ?_, fun later ↦ ?_⟩
    · rw [uniqueIterationKeys_eq_ofFn, map_ofFn]
      exact ofFn_get items
    · refine ⟨uniqueIterationKeys_ne_empty render items keyed hkeyed, ?_⟩
      have hkey := mem_map_of_mem (f := fst) hkeyed
      rw [keys_map_fst] at hkey
      obtain ⟨i, hi⟩ := (mem_ofFn' _ _).mp hkey
      rw [← hi]
      change (keyAt (baseKeysFrom render 0 items) _).length ≤ 128
      unfold keyAt suffixedKey
      split_ifs
      · exact hshort _ (get_mem _ _)
      · exact length_pyTake_le 128 _
    · exact uniqueKeysFrom_append 0 [] items later

/-- The third item is called like the second one after the suffix. -/
theorem suffix_meets_base_key : ¬ KeysSound (fun _ ↦ "") [.str "a", .str "a", .str "a-2"] := by
  intro h
  exact absurd h.distinct (by decide +kernel)

/-! ### Execution keys and storage keys -/

/-- What a row of a run is known by in the table, and the version of its node. -/
structure RowKey where
  nodeId : String
  nodeVersion : ℕ
  iterationKey : String
  deriving DecidableEq

namespace RowKey

def executionKey (runId : String) (key : RowKey) : String :=
  buildExecutionKey runId key.nodeId key.nodeVersion key.iterationKey

def storageKey (key : RowKey) : String := outputStorageKey key.nodeId key.iterationKey

/-- The values that the graph schema and the columns of the table admit. -/
def Admitted (key : RowKey) : Prop :=
  (IsShort key.nodeId ∧ pyStrip key.nodeId = key.nodeId) ∧ 1 ≤ key.nodeVersion ∧ key.iterationKey.length ≤ 128

instance (key : RowKey) : Decidable key.Admitted :=
  inferInstanceAs (Decidable (((1 ≤ _ ∧ _ ≤ 128) ∧ _ = _) ∧ _ ≤ _ ∧ _ ≤ _))

/-- Two rows with one execution key are one row, and so are two rows with one entry of `node_outputs`. -/
def ToldApart (runId : String) (a b : RowKey) : Prop :=
  (a.executionKey runId = b.executionKey runId → a = b) ∧
    (a.storageKey = b.storageKey → a.nodeId = b.nodeId ∧ a.iterationKey = b.iterationKey)

def versionPart (key : RowKey) : List Char := ":v".toList ++ key.nodeVersion.repr.toList

def iterationPart (key : RowKey) : List Char :=
  if key.iterationKey = "" then [] else ':' :: key.iterationKey.toList

def storagePart (key : RowKey) : List Char :=
  if pyStrip key.iterationKey = "" then [] else '#' :: (pyStrip key.iterationKey).toList

/-- The id of `b` is the id and the version of `a` and more, which the iteration key of `a` supplies. -/
def VersionOverlap (a b : RowKey) : Prop :=
  ∃ rest, b.nodeId.toList = a.nodeId.toList ++ (a.versionPart ++ rest) ∧
    a.iterationPart = rest ++ (b.versionPart ++ b.iterationPart)

/-- The id of `b` is the id of `a` and more, which the iteration key of `a` supplies. -/
def StorageOverlap (a b : RowKey) : Prop :=
  ∃ rest, rest ≠ [] ∧ b.nodeId.toList = a.nodeId.toList ++ rest ∧ a.storagePart = rest ++ b.storagePart

variable {runId : String} {a b : RowKey}

theorem executionKey_eq_iff : a.executionKey runId = b.executionKey runId ↔
    a.nodeId.toList ++ (a.versionPart ++ a.iterationPart) =
      b.nodeId.toList ++ (b.versionPart ++ b.iterationPart) := by
  have hlist : ∀ key : RowKey, (key.executionKey runId).toList = (runId ++ ":").toList ++
      (key.nodeId.toList ++ (key.versionPart ++ key.iterationPart)) := by
    intro key
    have hbase : (s!"{runId}:{key.nodeId}:v{key.nodeVersion}" : String) =
        runId ++ ":" ++ key.nodeId ++ ":v" ++ key.nodeVersion.repr := rfl
    unfold executionKey buildExecutionKey versionPart iterationPart
    rw [hbase]
    split_ifs with hkey
    · simp only [toList_append, append_assoc, append_nil]
    · change (runId ++ ":" ++ key.nodeId ++ ":v" ++ key.nodeVersion.repr ++ ":" ++ key.iterationKey).toList = _
      simp only [toList_append, append_assoc]
      rfl
  rw [← toList_inj, hlist, hlist, append_cancel_left_eq]

theorem storageKey_eq_iff : a.storageKey = b.storageKey ↔
    a.nodeId.toList ++ a.storagePart = b.nodeId.toList ++ b.storagePart := by
  have hlist : ∀ key : RowKey, key.storageKey.toList = key.nodeId.toList ++ key.storagePart := by
    intro key
    unfold storageKey outputStorageKey storagePart
    by_cases hkey : pyStrip key.iterationKey = ""
    · rw [if_neg (not_not.mpr hkey), if_pos hkey, append_nil]
    · rw [if_pos hkey, if_neg hkey]
      change (key.nodeId ++ "#" ++ pyStrip key.iterationKey).toList = _
      simp only [toList_append, append_assoc]
      rfl
  rw [← toList_inj, hlist, hlist]

theorem iterationPart_inj (h : a.iterationPart = b.iterationPart) : a.iterationKey = b.iterationKey := by
  unfold iterationPart at h
  split_ifs at h with ha hb
  · rw [ha, hb]
  · exact toList_inj.mp (List.cons.inj h).2

theorem storagePart_eq_iff : a.storagePart = b.storagePart ↔
    pyStrip a.iterationKey = pyStrip b.iterationKey := by
  unfold storagePart
  constructor
  · intro h
    split_ifs at h with ha hb
    · rw [ha, hb]
    · exact toList_inj.mp (List.cons.inj h).2
  · intro h
    rw [h]

/-- The only separator of a version part is its first character. -/
theorem exists_rest_of_versionPart {key : RowKey} {part rest tail : List Char}
    (h : key.versionPart ++ part = rest ++ ':' :: tail) :
    rest = [] ∨ ∃ more, rest = key.versionPart ++ more ∧ part = more ++ ':' :: tail := by
  obtain ⟨body, hbody, hplain⟩ : ∃ body, key.versionPart = ':' :: body ∧ ':' ∉ body := by
    refine ⟨'v' :: key.nodeVersion.repr.toList, rfl, fun hmem ↦ ?_⟩
    rcases mem_cons.mp hmem with hv | hdigit
    · exact absurd hv (by decide)
    · rw [toList_repr] at hdigit
      exact absurd (isDigit_of_mem_toDigits (by decide) (by decide) hdigit) (by decide)
  rw [hbody] at h ⊢
  cases rest with
  | nil => exact .inl rfl
  | cons first rest =>
    obtain ⟨rfl, hrest⟩ := List.cons.inj h
    refine .inr ?_
    rcases append_eq_append_iff.mp hrest with ⟨more, rfl, hpart⟩ | ⟨more, hsplit, htail⟩
    · exact ⟨more, rfl, hpart⟩
    · cases more with
      | nil => exact ⟨[], by rw [hsplit, append_nil, append_nil], htail.symm⟩
      | cons separator more =>
        rw [← (List.cons.inj htail).1] at hsplit
        exact absurd (hsplit ▸ by simp) hplain

/-- The version ends where the iteration key begins. -/
theorem versionPart_inj (h : a.versionPart ++ a.iterationPart = b.versionPart ++ b.iterationPart) :
    a.nodeVersion = b.nodeVersion ∧ a.iterationKey = b.iterationKey := by
  have hdigits : ∀ key : RowKey, (key.nodeVersion.repr.toList ++ key.iterationPart).takeWhile (· ≠ ':') =
      key.nodeVersion.repr.toList := by
    intro key
    have hall : ∀ c ∈ key.nodeVersion.repr.toList, decide (c ≠ ':') = true := by
      rw [toList_repr]
      rintro c hc
      exact decide_eq_true fun heq ↦
        absurd (isDigit_of_mem_toDigits (by decide) (by decide) hc) (by rw [heq]; decide)
    rw [takeWhile_append_of_pos hall]
    unfold iterationPart
    split_ifs
    · simp
    · simp
  unfold versionPart at h
  rw [append_assoc, append_assoc, append_cancel_left_eq] at h
  have hrepr := congrArg (takeWhile (· ≠ ':')) h
  rw [hdigits, hdigits] at hrepr
  refine ⟨?_, iterationPart_inj ?_⟩
  · have hvalue := congrArg (ofDigitChars 10 · 0) hrepr
    simpa using hvalue
  · rw [hrepr] at h
    exact append_cancel_left h

/-- Two different rows with one execution key overlap. -/
theorem eq_or_overlap (h : a.executionKey runId = b.executionKey runId) :
    a = b ∨ VersionOverlap a b ∨ VersionOverlap b a := by
  have hsame : a.nodeId = b.nodeId → a.versionPart ++ a.iterationPart = b.versionPart ++ b.iterationPart →
      a = b := by
    intro hid hparts
    obtain ⟨hversion, hkey⟩ := versionPart_inj hparts
    cases a
    cases b
    simp only at hid hversion hkey
    rw [hid, hversion, hkey]
  rcases append_eq_append_iff.mp (executionKey_eq_iff.mp h) with ⟨rest, hid, hpart⟩ | ⟨rest, hid, hpart⟩
  · rcases exists_rest_of_versionPart hpart with rfl | ⟨more, rfl, hmore⟩
    · exact .inl (hsame (toList_inj.mp (by rw [hid, append_nil])) hpart)
    · exact .inr (.inl ⟨more, hid, hmore⟩)
  · rcases exists_rest_of_versionPart hpart with rfl | ⟨more, rfl, hmore⟩
    · exact .inl (hsame (toList_inj.mp (by rw [hid, append_nil])) hpart.symm)
    · exact .inr (.inr ⟨more, hid, hmore⟩)

theorem VersionOverlap.executionKey_eq (h : VersionOverlap a b) :
    a.executionKey runId = b.executionKey runId := by
  obtain ⟨rest, hid, hpart⟩ := h
  rw [executionKey_eq_iff, hid, hpart]
  simp only [append_assoc]

theorem VersionOverlap.ne (h : VersionOverlap a b) : a ≠ b := by
  rintro rfl
  obtain ⟨rest, hid, -⟩ := h
  exact absurd (append_eq_nil_iff.mp (self_eq_append_right.mp hid)).1 (by simp [versionPart])

theorem StorageOverlap.storageKey_eq (h : StorageOverlap a b) : a.storageKey = b.storageKey := by
  obtain ⟨rest, -, hid, hpart⟩ := h
  rw [storageKey_eq_iff, hid, hpart, append_assoc]

theorem StorageOverlap.nodeId_ne (h : StorageOverlap a b) : a.nodeId ≠ b.nodeId := by
  obtain ⟨rest, hne, hid, -⟩ := h
  intro heq
  rw [heq] at hid
  exact hne (self_eq_append_right.mp hid)

/-- Two rows are told apart unless one of them takes part of its id from where the other has its version
or its iteration key, or their iteration keys differ only in surrounding blanks. -/
theorem toldApart_iff : ToldApart runId a b ↔
    ¬ VersionOverlap a b ∧ ¬ VersionOverlap b a ∧ ¬ StorageOverlap a b ∧ ¬ StorageOverlap b a ∧
      (a.nodeId = b.nodeId → pyStrip a.iterationKey = pyStrip b.iterationKey →
        a.iterationKey = b.iterationKey) := by
  constructor
  · rintro ⟨hexecution, hstorage⟩
    refine ⟨fun h ↦ ?_, fun h ↦ ?_, fun h ↦ ?_, fun h ↦ ?_, fun hid hstrip ↦ ?_⟩
    · exact h.ne (hexecution h.executionKey_eq)
    · exact h.ne (hexecution h.executionKey_eq.symm).symm
    · exact h.nodeId_ne (hstorage h.storageKey_eq).1
    · exact h.nodeId_ne (hstorage h.storageKey_eq.symm).1.symm
    · exact (hstorage (storageKey_eq_iff.mpr (by rw [hid, storagePart_eq_iff.mpr hstrip]))).2
  · rintro ⟨hversion, hversion', hstorage, hstorage', hblank⟩
    refine ⟨fun h ↦ ?_, fun h ↦ ?_⟩
    · rcases eq_or_overlap h with heq | hover | hover
      · exact heq
      · exact absurd hover hversion
      · exact absurd hover hversion'
    · have hsame : a.nodeId = b.nodeId → a.storagePart = b.storagePart →
          a.nodeId = b.nodeId ∧ a.iterationKey = b.iterationKey :=
        fun hid hpart ↦ ⟨hid, hblank hid (storagePart_eq_iff.mp hpart)⟩
      rcases append_eq_append_iff.mp (storageKey_eq_iff.mp h) with ⟨rest, hid, hpart⟩ | ⟨rest, hid, hpart⟩
      · by_cases hrest : rest = []
        · subst hrest
          exact hsame (toList_inj.mp (by rw [hid, append_nil])) hpart
        · exact absurd ⟨rest, hrest, hid, hpart⟩ hstorage
      · by_cases hrest : rest = []
        · subst hrest
          exact hsame (toList_inj.mp (by rw [hid, append_nil])) hpart.symm
        · exact absurd ⟨rest, hrest, hid, hpart⟩ hstorage'

/-- Ids and iteration keys with separators in them: the row of one node has a key of that of another. -/
theorem admitted_rows_share_keys :
    Admitted ⟨"a", 1, "b:v1"⟩ ∧ Admitted ⟨"a:v1:b", 1, ""⟩ ∧
      ¬ ToldApart "run" ⟨"a", 1, "b:v1"⟩ ⟨"a:v1:b", 1, ""⟩ ∧
      Admitted ⟨"a", 1, "b"⟩ ∧ Admitted ⟨"a#b", 1, ""⟩ ∧ ¬ ToldApart "run" ⟨"a", 1, "b"⟩ ⟨"a#b", 1, ""⟩ := by
  unfold ToldApart
  decide +kernel

end RowKey

end ContentGenerator.Workflows
