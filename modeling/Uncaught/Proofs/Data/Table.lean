import Mathlib.Data.List.Nodup
import Uncaught.Data.Table

/-
  Laws of tables: which keys a table has, and what is found
  under a key after each way of changing a table.

  Main declarations:
    * `Table.mem_keys_iff`
    * `Table.ext_get?`
    * `Table.Rel.rel_get?`
    * `Table.get?_insertNew`
    * `Table.get?_modify`
    * `Table.get?_ofList`
    * `Table.entries_ofList`
    * `Table.lookup_eq_of_perm`
    * `Table.foldl_at_key`
-/

namespace Uncaught

namespace Table

variable {κ α : Type} [DecidableEq κ]

------------------------------------------------------------
-- Keys And Entries
------------------------------------------------------------

@[simp] theorem get?_empty
    (k : κ) :
    (empty : Table κ α).get? k = none := rfl

omit [DecidableEq κ] in
@[simp] theorem keys_empty :
    (empty : Table κ α).keys = [] := rfl

/- A key is one under which something is found. -/
theorem mem_keys_iff
    (t : Table κ α)
    (k : κ) :
    k ∈ t.keys ↔ ∃ a, t.get? k = some a := by
  rw [← Option.isSome_iff_exists, get?, List.lookup_isSome_iff]
  simp [keys]

@[simp] theorem contains_iff
    (t : Table κ α)
    (k : κ) :
    t.contains k = true ↔ k ∈ t.keys := by
  rw [mem_keys_iff, contains, Option.isSome_iff_exists]

theorem get?_eq_none_iff
    (t : Table κ α)
    (k : κ) :
    t.get? k = none ↔ k ∉ t.keys := by
  rw [← contains_iff, contains]
  simp

/-
  Among entries with distinct keys, the one that is found under
  a key is the only one with this key.
-/
theorem lookup_eq_some_iff_mem
    {entries : List (κ × α)}
    (hNodup : (entries.map Prod.fst).Nodup)
    (k : κ)
    (a : α) :
    entries.lookup k = some a ↔ (k, a) ∈ entries := by
  induction entries with
  | nil => simp
  | cons entry rest ih =>
      obtain ⟨key, value⟩ := entry
      rw [List.map_cons, List.nodup_cons] at hNodup
      by_cases hKey : k = key
      · subst hKey
        have hRest : (k, a) ∉ rest := by
          intro hMem
          exact hNodup.1 (List.mem_map.mpr ⟨(k, a), hMem, rfl⟩)
        simp [hRest, eq_comm]
      · have hBeq : (k == key) = false := by simpa using hKey
        rw [List.lookup_cons, hBeq]
        simpa [hKey] using ih hNodup.2

/- Among distinct keys the order of the entries is nothing. -/
theorem lookup_eq_of_perm
    {left right : List (κ × α)}
    (hNodup : (left.map Prod.fst).Nodup)
    (hPerm : left.Perm right)
    (k : κ) :
    left.lookup k = right.lookup k := by
  have hRight : (right.map Prod.fst).Nodup :=
    (hPerm.map Prod.fst).nodup_iff.mp hNodup
  apply Option.ext
  intro a
  rw [lookup_eq_some_iff_mem hNodup,
    lookup_eq_some_iff_mem hRight, hPerm.mem_iff]

/- What is made of each value is found under its key. -/
theorem lookup_map_snd
    {β : Type}
    (f : α → β)
    (entries : List (κ × α))
    (k : κ) :
    (entries.map fun e => (e.1, f e.2)).lookup k =
      (entries.lookup k).map f := by
  induction entries with
  | nil => rfl
  | cons e rest ih =>
      obtain ⟨key, a⟩ := e
      rw [List.map_cons, List.lookup_cons, List.lookup_cons, ih]
      cases k == key <;> rfl

theorem get?_eq_some_iff
    (t : Table κ α)
    (k : κ)
    (a : α) :
    t.get? k = some a ↔ (k, a) ∈ t.entries :=
  lookup_eq_some_iff_mem t.nodup k a

/- A table is empty where nothing is found under any key. -/
theorem isEmpty_iff
    (t : Table κ α) :
    t.isEmpty = true ↔ ∀ k, t.get? k = none := by
  simp only [get?_eq_none_iff, ← List.eq_nil_iff_forall_not_mem]
  simp [isEmpty, keys]

/-
  Tables with the same keys in the same order, under which the
  same is found, are the same.
-/
theorem ext_get?
    {t u : Table κ α}
    (hKeys : t.keys = u.keys)
    (hGet : ∀ k, t.get? k = u.get? k) :
    t = u := by
  have hEntries : t.entries = u.entries := by
    apply List.ext_getElem
    · simpa [keys] using congrArg List.length hKeys
    · intro i hLeft hRight
      have hKey : t.entries[i].1 = u.entries[i].1 := by
        simpa [keys, hLeft, hRight] using
          congrArg (fun ks : List κ => ks[i]?) hKeys
      have hFound :
          u.get? t.entries[i].1 = some t.entries[i].2 := by
        rw [← hGet, get?_eq_some_iff]
        exact List.getElem_mem hLeft
      have hThere :
          u.get? u.entries[i].1 = some u.entries[i].2 := by
        rw [get?_eq_some_iff]
        exact List.getElem_mem hRight
      rw [hKey, hThere] at hFound
      exact Prod.ext hKey (Option.some.inj hFound).symm
  cases t
  cases u
  simpa using hEntries

/- A value belongs to a key. -/
theorem mem_values_iff
    (t : Table κ α)
    (a : α) :
    a ∈ t.values ↔ ∃ k, t.get? k = some a := by
  simp [values, get?_eq_some_iff]

------------------------------------------------------------
-- Related Tables
------------------------------------------------------------

/-
  Tables with the same keys in the same order, and with related
  values.
-/
def Rel
    {β : Type}
    (R : α → β → Prop)
    (t : Table κ α)
    (u : Table κ β) : Prop :=
  List.Forall₂ (fun e e' => e.1 = e'.1 ∧ R e.2 e'.2)
    t.entries u.entries

omit [DecidableEq κ] in
theorem Rel.refl
    {R : α → α → Prop}
    (hRefl : ∀ a, R a a)
    (t : Table κ α) :
    Rel R t t :=
  List.forall₂_same.mpr fun e _ => ⟨rfl, hRefl e.2⟩

/- What is found under a key of both is related. -/
theorem Rel.rel_get?
    {β : Type}
    {R : α → β → Prop}
    {t : Table κ α}
    {u : Table κ β}
    (hRel : Rel R t u)
    (k : κ) :
    Option.Rel R (t.get? k) (u.get? k) := by
  unfold Rel at hRel
  unfold get?
  generalize t.entries = left at hRel
  generalize u.entries = right at hRel
  induction hRel with
  | nil => exact .none
  | @cons e e' _ _ hEntry _ ih =>
      obtain ⟨key, a⟩ := e
      obtain ⟨key', b⟩ := e'
      rcases hEntry with ⟨rfl, hValue⟩
      rw [List.lookup_cons, List.lookup_cons]
      cases k == key with
      | true => exact .some hValue
      | false => exact ih

------------------------------------------------------------
-- Changes
------------------------------------------------------------

/- What is found after setting a value is it, or was there. -/
theorem get?_insert_cases
    {t : Table κ α}
    {k k' : κ}
    {a b : α}
    (hFound : (t.insert k a).get? k' = some b) :
    (k' = k ∧ b = a) ∨ t.get? k' = some b := by
  rw [get?_insert] at hFound
  by_cases hSame : k' = k
  · rw [if_pos hSame] at hFound
    cases hFound
    exact .inl ⟨hSame, rfl⟩
  · rw [if_neg hSame] at hFound
    exact .inr hFound

/- A new key comes last. -/
theorem insert_entries_of_not_mem
    {entries : List (κ × α)}
    {k : κ}
    (hNew : k ∉ entries.map Prod.fst)
    (a : α) :
    Entries.insert k a entries = entries ++ [(k, a)] := by
  induction entries with
  | nil => rfl
  | cons e rest ih =>
      obtain ⟨key, b⟩ := e
      simp only [List.map_cons, List.mem_cons, not_or] at hNew
      have hOther : key ≠ k := fun hSame => hNew.1 hSame.symm
      rw [Entries.insert, if_neg hOther, ih hNew.2,
        List.cons_append]

/-
  Setting a value is not seen by a test that fails for it, and
  for the value that it replaces.
-/
theorem filter_insert_entries
    {entries : List (κ × α)}
    {k : κ}
    {a : α}
    {keep : κ × α → Bool}
    (hNew : keep (k, a) = false)
    (hOld :
      ∀ b, entries.lookup k = some b → keep (k, b) = false) :
    (Entries.insert k a entries).filter keep =
      entries.filter keep := by
  induction entries with
  | nil => simp [Entries.insert, hNew]
  | cons e rest ih =>
      obtain ⟨key, b⟩ := e
      by_cases hSame : key = k
      · subst hSame
        have hDropped := hOld b (by simp)
        simp [Entries.insert, hNew, hDropped]
      · have hBeq : (k == key) = false := by
          simpa using fun h => hSame h.symm
        simp only [List.lookup_cons, hBeq] at hOld
        simp only [Entries.insert, if_neg hSame,
          List.filter_cons, ih hOld]

/- A key that is there keeps its place. -/
theorem keys_insert_of_mem
    {t : Table κ α}
    {k : κ}
    (hKey : k ∈ t.keys)
    (a : α) :
    (t.insert k a).keys = t.keys := by
  unfold keys at hKey ⊢
  rw [insert, Entries.keys_insert, if_pos hKey]

theorem insertNew_of_mem
    {t : Table κ α}
    {k : κ}
    (hKey : k ∈ t.keys)
    (a : α) :
    t.insertNew k a = t := by
  rw [insertNew, if_pos ((contains_iff t k).mpr hKey)]

/- A key that is there keeps its value. -/
theorem get?_insertNew
    (t : Table κ α)
    (k k' : κ)
    (a : α) :
    (t.insertNew k a).get? k' =
      if k' = k then some ((t.get? k).getD a)
      else t.get? k' := by
  unfold insertNew
  cases hFound : t.get? k with
  | none =>
      simp [contains, hFound, get?_insert]
  | some b =>
      by_cases hKey : k' = k
      · subst hKey
        simp [contains, hFound]
      · simp [contains, hFound, hKey]

theorem mem_keys_insertNew
    (t : Table κ α)
    (k k' : κ)
    (a : α) :
    k' ∈ (t.insertNew k a).keys ↔ k' = k ∨ k' ∈ t.keys := by
  simp only [mem_keys_iff, get?_insertNew]
  by_cases hKey : k' = k <;> simp [hKey]

/- A change is seen at its key, if there is a value. -/
theorem get?_modify
    (t : Table κ α)
    (k k' : κ)
    (f : α → α) :
    (t.modify k f).get? k' =
      if k' = k then (t.get? k).map f else t.get? k' := by
  unfold modify
  cases hFound : t.get? k with
  | none =>
      by_cases hKey : k' = k
      · simp [hKey, hFound]
      · simp [hKey]
  | some a =>
      simp [get?_insert]

/- A change of a value leaves all keys in their places. -/
theorem keys_modify
    (t : Table κ α)
    (k : κ)
    (f : α → α) :
    (t.modify k f).keys = t.keys := by
  unfold modify
  cases hFound : t.get? k with
  | none => rfl
  | some a =>
      exact keys_insert_of_mem
        ((mem_keys_iff t k).mpr ⟨a, hFound⟩) (f a)

@[simp] theorem mem_keys_modify
    (t : Table κ α)
    (k k' : κ)
    (f : α → α) :
    k' ∈ (t.modify k f).keys ↔ k' ∈ t.keys := by
  rw [keys_modify]

------------------------------------------------------------
-- Tables Of Lists
------------------------------------------------------------

/- Of the values set for a key the last one counts. -/
theorem get?_foldl_insert
    (entries : List (κ × α))
    (t : Table κ α)
    (k : κ) :
    (entries.foldl (fun t e => t.insert e.1 e.2) t).get? k =
      (entries.reverse.lookup k).or (t.get? k) := by
  induction entries generalizing t with
  | nil => simp
  | cons entry rest ih =>
      obtain ⟨key, value⟩ := entry
      rw [List.foldl_cons, ih, List.reverse_cons,
        List.lookup_append, Option.or_assoc, get?_insert]
      congr 1
      by_cases hKey : k = key
      · simp [hKey]
      · have hBeq : (k == key) = false := by simpa using hKey
        simp [hKey, List.lookup_cons, hBeq]

/- Of the values set for one key the last one counts. -/
theorem get?_foldl_insert_same
    (values : List α)
    (t : Table κ α)
    (k k' : κ) :
    (values.foldl (fun t a => t.insert k a) t).get? k' =
      if k' = k then values.getLast?.or (t.get? k)
      else t.get? k' := by
  induction values generalizing t with
  | nil =>
      by_cases hKey : k' = k <;> simp [hKey]
  | cons a rest ih =>
      rw [List.foldl_cons, ih, get?_insert]
      by_cases hKey : k' = k
      · cases hLast : rest.getLast? with
        | none => simp [hKey, List.getLast?_cons, hLast]
        | some b => simp [hKey, List.getLast?_cons, hLast]
      · simp [hKey, get?_insert]

/- Among distinct keys, one entry changes what is kept of a key. -/
theorem foldl_at_key
    {β : Type}
    {entries : List (κ × α)}
    (hNodup : (entries.map Prod.fst).Nodup)
    (k : κ)
    (change : α → β → β)
    (start : β) :
    entries.foldl
        (fun b e => if k = e.1 then change e.2 b else b) start =
      ((entries.lookup k).map (change · start)).getD start := by
  induction entries generalizing start with
  | nil => rfl
  | cons e rest ih =>
      obtain ⟨key, a⟩ := e
      rw [List.map_cons, List.nodup_cons] at hNodup
      rw [List.foldl_cons, ih hNodup.2]
      by_cases hKey : k = key
      · subst hKey
        have hNone : rest.lookup k = none := by
          rw [List.lookup_eq_none_iff]
          intro entry hEntry
          have hOther : k ≠ entry.1 := by
            intro hSame
            exact hNodup.1
              (List.mem_map.mpr ⟨entry, hEntry, hSame.symm⟩)
          simpa using hOther
        simp [hNone]
      · have hBeq : (k == key) = false := by simpa using hKey
        simp [hKey, List.lookup_cons, hBeq]

/- A value that comes from its key is set for each key. -/
theorem get?_foldl_insert_keys
    (value : κ → α)
    (added : List κ)
    (t : Table κ α)
    (k : κ) :
    (added.foldl (fun t k => t.insert k (value k)) t).get? k =
      if k ∈ added then some (value k) else t.get? k := by
  induction added generalizing t with
  | nil => simp
  | cons first rest ih =>
      rw [List.foldl_cons, ih, get?_insert]
      by_cases hFirst : k = first
      · subst hFirst
        simp
      · simp [hFirst]

/- Values that a test drops are not seen by it. -/
theorem filter_foldl_insert_keys
    {value : κ → α}
    {added : List κ}
    {keep : κ × α → Bool}
    (t : Table κ α)
    (hNew : ∀ k ∈ added, keep (k, value k) = false)
    (hOld :
      ∀ k ∈ added, ∀ a, t.get? k = some a →
        keep (k, a) = false) :
    (added.foldl (fun t k => t.insert k (value k))
        t).entries.filter keep =
      t.entries.filter keep := by
  induction added generalizing t with
  | nil => rfl
  | cons first rest ih =>
      have hFirst := hNew first List.mem_cons_self
      rw [List.foldl_cons, ih]
      · exact filter_insert_entries hFirst
          (hOld first List.mem_cons_self)
      · intro k hk
        exact hNew k (List.mem_cons_of_mem _ hk)
      · intro k hk a hFound
        rcases get?_insert_cases hFound with
          ⟨rfl, rfl⟩ | hThere
        · exact hFirst
        · exact hOld k (List.mem_cons_of_mem _ hk) a hThere

theorem get?_ofList
    (entries : List (κ × α))
    (k : κ) :
    (ofList entries).get? k = entries.reverse.lookup k := by
  rw [ofList, get?_foldl_insert, get?_empty, Option.or_none]

/- Entries with distinct keys are kept as they are. -/
theorem entries_foldl_insert
    {entries : List (κ × α)}
    {t : Table κ α}
    (hNodup : ((t.entries ++ entries).map Prod.fst).Nodup) :
    (entries.foldl (fun t e => t.insert e.1 e.2) t).entries =
      t.entries ++ entries := by
  induction entries generalizing t with
  | nil => exact (List.append_nil t.entries).symm
  | cons e rest ih =>
      have hNew : e.1 ∉ t.keys := by
        intro hMem
        rw [List.map_append, List.nodup_append] at hNodup
        exact hNodup.2.2 _ hMem _ List.mem_cons_self rfl
      have hInsert :
          (t.insert e.1 e.2).entries = t.entries ++ [e] :=
        insert_entries_of_not_mem hNew e.2
      rw [List.foldl_cons, ih]
      · rw [hInsert, List.append_assoc, List.singleton_append]
      · rwa [hInsert, List.append_assoc, List.singleton_append]

/- The entries of a table that is filled, as a list. -/
theorem entries_foldl_insert_eq
    (entries : List (κ × α))
    (t : Table κ α) :
    (entries.foldl (fun t e => t.insert e.1 e.2) t).entries =
      entries.foldl (fun acc e => Entries.insert e.1 e.2 acc)
        t.entries := by
  induction entries generalizing t with
  | nil => rfl
  | cons e rest ih =>
      rw [List.foldl_cons, List.foldl_cons, ih]
      rfl

theorem entries_ofList
    {entries : List (κ × α)}
    (hNodup : (entries.map Prod.fst).Nodup) :
    (ofList entries).entries = entries :=
  entries_foldl_insert hNodup

theorem mem_keys_ofList
    (entries : List (κ × α))
    (k : κ) :
    k ∈ (ofList entries).keys ↔ k ∈ entries.map Prod.fst := by
  rw [mem_keys_iff, get?_ofList, ← Option.isSome_iff_exists,
    List.lookup_isSome_iff]
  simp

/- Only the entries of a key tell its value. -/
theorem lookup_filter
    (entries : List (κ × α))
    (k : κ) :
    (entries.filter fun e => decide (e.1 = k)).lookup k =
      entries.lookup k := by
  induction entries with
  | nil => rfl
  | cons e rest ih =>
      obtain ⟨key, a⟩ := e
      by_cases hKey : key = k
      · subst hKey
        simp
      · have hOther : (k == key) = false := by
          simpa using fun h => hKey h.symm
        rw [List.filter_cons_of_neg (by simpa using hKey),
          List.lookup_cons, hOther, ih]

theorem get?_ofList_filter
    (entries : List (κ × α))
    (k : κ) :
    (ofList entries).get? k =
      (ofList (entries.filter fun e =>
        decide (e.1 = k))).get? k := by
  rw [get?_ofList, get?_ofList, ← List.filter_reverse,
    lookup_filter]

/- What is found was in the list. -/
theorem mem_of_get?_ofList
    {entries : List (κ × α)}
    {k : κ}
    {a : α}
    (hFound : (ofList entries).get? k = some a) :
    (k, a) ∈ entries := by
  rw [get?_ofList, List.lookup_eq_some_iff] at hFound
  rcases hFound with ⟨front, back, hSplit, -⟩
  rw [← List.mem_reverse, hSplit]
  simp

end Table

end Uncaught
