/-!
# Keyed tables

A table holds at most one value for each key, in the order in which the keys were first entered.
Entering a key again replaces its value. `get?` is the view through which a table is read.
-/

namespace TypeProjection

/-- Entries with distinct keys. -/
structure Table (α : Type) where
  entries : List (String × α)
  nodup_keys : (entries.map Prod.fst).Nodup

namespace Table

variable {α : Type}

/-- The value at a key in a list of entries; the first of equal keys counts. -/
def find? (key : String) : List (String × α) → Option α
  | [] => none
  | (k, v) :: rest => if k = key then some v else find? key rest

/-- Replaces the value at a key, or adds the key at the end. -/
def put (key : String) (value : α) : List (String × α) → List (String × α)
  | [] => [(key, value)]
  | (k, v) :: rest => if k = key then (key, value) :: rest else (k, v) :: put key value rest

theorem mem_keys_put {key k : String} {value : α} {entries : List (String × α)} :
    k ∈ (put key value entries).map Prod.fst ↔ k = key ∨ k ∈ entries.map Prod.fst := by
  induction entries with
  | nil => simp [put]
  | cons entry rest ih =>
    obtain ⟨k', v⟩ := entry
    by_cases h : k' = key
    · subst h; simp [put]
    · simp only [put, if_neg h, List.map_cons, List.mem_cons, ih]
      grind

theorem nodup_keys_put {key : String} {value : α} {entries : List (String × α)}
    (h : (entries.map Prod.fst).Nodup) : ((put key value entries).map Prod.fst).Nodup := by
  induction entries with
  | nil => simp [put]
  | cons entry rest ih =>
    obtain ⟨k', v⟩ := entry
    rw [List.map_cons, List.nodup_cons] at h
    by_cases hk : k' = key
    · subst hk; simpa [put] using h
    · rw [put, if_neg hk, List.map_cons, List.nodup_cons, mem_keys_put]
      exact ⟨fun hm => hm.elim hk h.1, ih h.2⟩

def empty : Table α := ⟨[], List.nodup_nil⟩

/-- Enters a value at a key, in place of the one it had. -/
def insert (t : Table α) (key : String) (value : α) : Table α :=
  ⟨put key value t.entries, nodup_keys_put t.nodup_keys⟩

def get? (t : Table α) (key : String) : Option α := find? key t.entries

def contains (t : Table α) (key : String) : Bool := (t.get? key).isSome

def size (t : Table α) : Nat := t.entries.length

/-- The keys, oldest first. -/
def keys (t : Table α) : List String := t.entries.map Prod.fst

def isEmpty (t : Table α) : Bool := t.entries.isEmpty

/-- Enters pairs in order, so the last of equal keys counts. -/
def insertAll (t : Table α) (pairs : List (String × α)) : Table α :=
  pairs.foldl (fun t (key, value) => t.insert key value) t

/-- The table of a list of pairs; the last of equal keys counts. -/
def ofList (pairs : List (String × α)) : Table α := empty.insertAll pairs

/-- The entries in ascending order of their keys, by code points. -/
def sorted (t : Table α) : List (String × α) :=
  t.entries.mergeSort fun a b => decide (a.1 ≤ b.1)

instance : EmptyCollection (Table α) := ⟨empty⟩

instance : Inhabited (Table α) := ⟨empty⟩

@[simp] theorem get?_empty (key : String) : (empty : Table α).get? key = none := rfl

theorem find?_put {key k : String} {value : α} {entries : List (String × α)} :
    find? k (put key value entries) = if key = k then some value else find? k entries := by
  induction entries with
  | nil => simp [put, find?]
  | cons entry rest ih =>
    obtain ⟨k', v⟩ := entry
    by_cases h : k' = key
    · subst h; by_cases hk : k' = k <;> simp [put, find?, hk]
    · by_cases hk : k' = k
      · subst hk; simp [put, find?, h, Ne.symm h]
      · simp [put, find?, h, hk, ih]

@[simp] theorem get?_insert (t : Table α) (key k : String) (value : α) :
    (t.insert key value).get? k = if key = k then some value else t.get? k :=
  find?_put

theorem isSome_find?_iff {key : String} {entries : List (String × α)} :
    (find? key entries).isSome = true ↔ key ∈ entries.map Prod.fst := by
  induction entries with
  | nil => simp [find?]
  | cons entry rest ih =>
    obtain ⟨k, v⟩ := entry
    by_cases h : k = key
    · simp [find?, h]
    · rw [find?, if_neg h, ih, List.map_cons, List.mem_cons]
      exact (or_iff_right (Ne.symm h)).symm

theorem contains_iff {t : Table α} {key : String} : t.contains key = true ↔ key ∈ t.keys :=
  isSome_find?_iff

theorem put_of_find?_eq_none {key : String} {entries : List (String × α)}
    (h : find? key entries = none) (value : α) : put key value entries = entries ++ [(key, value)] := by
  induction entries with
  | nil => rfl
  | cons entry rest ih =>
    obtain ⟨k, v⟩ := entry
    rw [find?] at h
    split at h
    · cases h
    · rename_i hne
      rw [put, if_neg hne, ih h, List.cons_append]

/-- A new key is entered behind the others. -/
theorem entries_insert {t : Table α} {key : String} (h : t.get? key = none) (value : α) :
    (t.insert key value).entries = t.entries ++ [(key, value)] :=
  put_of_find?_eq_none h value

theorem keys_insert {t : Table α} {key : String} (h : t.get? key = none) (value : α) :
    (t.insert key value).keys = t.keys ++ [key] := by
  rw [keys, entries_insert h, List.map_append]
  rfl

theorem size_insert {t : Table α} {key : String} (h : t.get? key = none) (value : α) :
    (t.insert key value).size = t.size + 1 := by
  rw [size, entries_insert h, List.length_append]
  rfl

theorem get?_insertAll (t : Table α) (pairs : List (String × α)) (key : String) :
    (t.insertAll pairs).get? key = (pairs.reverse.lookup key).or (t.get? key) := by
  induction pairs generalizing t with
  | nil => rfl
  | cons pair rest ih =>
    obtain ⟨k, value⟩ := pair
    have hrest : t.insertAll ((k, value) :: rest) = (t.insert k value).insertAll rest := rfl
    rw [hrest, ih, get?_insert, List.reverse_cons, List.lookup_append, Option.or_assoc]
    congr 1
    by_cases h : k = key
    · rw [if_pos h, h, List.lookup_cons_self, Option.some_or]
    · have hne : (key == k) = false := beq_false_of_ne (Ne.symm h)
      rw [if_neg h, List.lookup_cons, hne, List.lookup_nil, Option.none_or]

/-- In a table of pairs the last pair of a key counts. -/
theorem get?_ofList (pairs : List (String × α)) (key : String) :
    (ofList pairs).get? key = pairs.reverse.lookup key := by
  rw [ofList, get?_insertAll, get?_empty, Option.or_none]

theorem mem_of_find? {key : String} {value : α} {entries : List (String × α)}
    (h : find? key entries = some value) : (key, value) ∈ entries := by
  induction entries with
  | nil => cases h
  | cons entry rest ih =>
    obtain ⟨k, v⟩ := entry
    rw [find?] at h
    split at h
    · rename_i hkey
      rw [hkey, Option.some.inj h]
      exact List.mem_cons_self
    · exact List.mem_cons_of_mem _ (ih h)

theorem mem_entries_of_get? {t : Table α} {key : String} {value : α}
    (h : t.get? key = some value) : (key, value) ∈ t.entries :=
  mem_of_find? h

end Table

end TypeProjection
