/-
  This file defines tables: finite maps that keep the order in
  which their keys came.

  Key definitions include:
    * `Table`
    * `Table.get?`
    * `Table.insert`
    * `Table.keys`
    * `Table.values`
-/

namespace Uncaught

------------------------------------------------------------
-- Entries
------------------------------------------------------------

namespace Entries

variable {κ α : Type} [DecidableEq κ]

/-
  Set the value of a key: a key that is there keeps its place,
  a new one comes last.
-/
def insert
    (k : κ)
    (a : α) : List (κ × α) → List (κ × α)
  | [] => [(k, a)]
  | (k', a') :: rest =>
      if k' = k then
        (k, a) :: rest
      else
        (k', a') :: insert k a rest

/- The keys after setting the value of a key. -/
theorem keys_insert
    (k : κ)
    (a : α)
    (entries : List (κ × α)) :
    (insert k a entries).map Prod.fst =
      if k ∈ entries.map Prod.fst then
        entries.map Prod.fst
      else
        entries.map Prod.fst ++ [k] := by
  induction entries with
  | nil => simp [insert]
  | cons e rest ih =>
      obtain ⟨k', a'⟩ := e
      by_cases h : k' = k
      · subst h
        simp [insert]
      · have h' : ¬k = k' := fun e => h e.symm
        by_cases hm : k ∈ rest.map Prod.fst
        · rw [if_pos hm] at ih
          have hm' :
              k ∈ ((k', a') :: rest).map Prod.fst :=
            List.mem_cons_of_mem _ hm
          rw [if_pos hm']
          simp [insert, h, ih]
        · rw [if_neg hm] at ih
          have hm' :
              k ∉ ((k', a') :: rest).map Prod.fst := by
            intro hmem
            rcases List.mem_cons.mp hmem with he | he
            · exact h' he
            · exact hm he
          rw [if_neg hm']
          simp [insert, h, ih]

/- Setting a value keeps the keys distinct. -/
theorem nodup_insert
    {k : κ}
    {a : α}
    {entries : List (κ × α)}
    (h : (entries.map Prod.fst).Nodup) :
    ((insert k a entries).map Prod.fst).Nodup := by
  rw [keys_insert]
  split
  · exact h
  · next hm =>
      refine List.nodup_append.mpr ⟨h, by simp, ?_⟩
      intro x hx y hy e
      simp only [List.mem_singleton] at hy
      exact hm (by rw [← hy, ← e]; exact hx)

end Entries

------------------------------------------------------------
-- Tables
------------------------------------------------------------

/- A list of entries with distinct keys. -/
structure Table (κ α : Type) where
  entries : List (κ × α)
  nodup : (entries.map Prod.fst).Nodup
  deriving DecidableEq

namespace Table

variable {κ α : Type} [DecidableEq κ]

/- The table without entries. -/
def empty : Table κ α :=
  ⟨[], by simp⟩

instance : Inhabited (Table κ α) :=
  ⟨empty⟩

/- The keys of a table, in the order in which they came. -/
def keys
    (t : Table κ α) : List κ :=
  t.entries.map Prod.fst

/- The values of a table, in the order of their keys. -/
def values
    (t : Table κ α) : List α :=
  t.entries.map Prod.snd

/- The number of entries. -/
def size
    (t : Table κ α) : Nat :=
  t.entries.length

/- Whether a table has no entries. -/
def isEmpty
    (t : Table κ α) : Bool :=
  t.entries.isEmpty

/- The value of a key. -/
def get?
    (t : Table κ α)
    (k : κ) : Option α :=
  t.entries.lookup k

/- Whether a table has a key. -/
def contains
    (t : Table κ α)
    (k : κ) : Bool :=
  (t.get? k).isSome

/- Set the value of a key. -/
def insert
    (t : Table κ α)
    (k : κ)
    (a : α) : Table κ α :=
  ⟨Entries.insert k a t.entries, Entries.nodup_insert t.nodup⟩

/- Set the value of a key that has none. -/
def insertNew
    (t : Table κ α)
    (k : κ)
    (a : α) : Table κ α :=
  if t.contains k then t else t.insert k a

/- Change the value of a key that has one. -/
def modify
    (t : Table κ α)
    (k : κ)
    (f : α → α) : Table κ α :=
  match t.get? k with
  | some a => t.insert k (f a)
  | none => t

/- The table of a list of entries, the later ones counting. -/
def ofList
    (entries : List (κ × α)) : Table κ α :=
  entries.foldl (fun t e => t.insert e.1 e.2) empty

/- Setting a value is seen at its key and nowhere else. -/
theorem get?_insert
    (t : Table κ α)
    (k k' : κ)
    (a : α) :
    (t.insert k a).get? k' =
      if k' = k then some a else t.get? k' := by
  simp only [insert, get?]
  induction t.entries with
  | nil =>
      by_cases h : k' = k
      · simp [Entries.insert, h]
      · have hb : (k' == k) = false := by simpa using h
        simp [Entries.insert, List.lookup_cons, h, hb]
  | cons e rest ih =>
      obtain ⟨k₀, a₀⟩ := e
      by_cases h₀ : k₀ = k
      · subst h₀
        by_cases h : k' = k₀
        · simp [Entries.insert, h]
        · have hb : (k' == k₀) = false := by simpa using h
          simp [Entries.insert, List.lookup_cons, h, hb]
      · by_cases h : k' = k₀
        · subst h
          simp [Entries.insert, h₀]
        · have hb : (k' == k₀) = false := by simpa using h
          simp only [Entries.insert, h₀, if_false,
            List.lookup_cons, hb]
          exact ih

end Table

end Uncaught
