import Mathlib.Data.List.Dedup
import Mathlib.Data.List.Sort
import TypeProjection.Builtin
import TypeProjection.Proofs.ByteOrder

/-!
# Listings of builtin types

A table is read by keys, and the listing shows all of it. This file ties the two together: whatever
has been inserted in which order, the listing has one row for each key, with what was inserted last
for it, in ascending order of the bytes of the keys. There is only one list of such rows, so the
listing depends on nothing but what the table answers. Main statement: `listing_canonical`.
-/

namespace TypeProjection

namespace Table

variable {α : Type} {t : Table α}

/-! ## What a table holds -/

/-- The value that counts for a key after a number of inserts into a table: the last one that was
inserted for it, or else the one that it had. -/
def lastValue? (start : Table α) (inserts : List (String × α)) (key : String) : Option α :=
  (inserts.reverse.lookup key).or (start.get? key)

theorem find?_of_mem {key : String} {value : α} {entries : List (String × α)}
    (hkeys : (entries.map Prod.fst).Nodup) (h : (key, value) ∈ entries) :
    find? key entries = some value := by
  induction entries with
  | nil => cases h
  | cons entry rest ih =>
    obtain ⟨k, v⟩ := entry
    rw [List.map_cons, List.nodup_cons] at hkeys
    rw [find?]
    rcases List.mem_cons.1 h with hentry | hrest
    · cases hentry
      rw [if_pos rfl]
    · have hne : k ≠ key := by
        rintro rfl
        exact hkeys.1 (List.mem_map.2 ⟨(k, value), hrest, rfl⟩)
      rw [if_neg hne]
      exact ih hkeys.2 hrest

theorem mem_entries_iff {key : String} {value : α} :
    (key, value) ∈ t.entries ↔ t.get? key = some value :=
  ⟨find?_of_mem t.nodup_keys, mem_entries_of_get?⟩

theorem mem_keys_insertAll {inserts : List (String × α)} {key : String} :
    key ∈ (t.insertAll inserts).keys ↔ key ∈ t.keys ∨ key ∈ inserts.map Prod.fst := by
  induction inserts generalizing t with
  | nil => simp [insertAll]
  | cons entry rest ih =>
    have hstep : key ∈ (t.insert entry.1 entry.2).keys ↔ key = entry.1 ∨ key ∈ t.keys :=
      mem_keys_put
    have hrest : t.insertAll (entry :: rest) = (t.insert entry.1 entry.2).insertAll rest := rfl
    rw [hrest, ih, hstep, List.map_cons, List.mem_cons]
    tauto

/-! ## Rows -/

/-- The key of a row has lower bytes than that of another one. -/
def Precedes (a b : String × α) : Prop := Text.bytes a.1 < Text.bytes b.1

theorem precedes_iff {a b : String × α} : Precedes a b ↔ a.1 < b.1 := Text.bytes_lt_iff

instance : Std.Irrefl (@Precedes α) := ⟨fun _ => List.lt_irrefl _⟩

instance : Std.Antisymm (@Precedes α) := ⟨fun _ _ h h' => absurd h' (List.lt_asymm h)⟩

/-- A list of rows shows every key that has a value once, with its value, and the rows are in strictly
ascending order of the bytes of their keys. -/
structure Enumerates (value? : String → Option α) (rows : List (String × α)) : Prop where
  ascending : rows.Pairwise Precedes
  mem_iff : ∀ key value, (key, value) ∈ rows ↔ value? key = some value

namespace Enumerates

variable {value? : String → Option α} {rows rows' : List (String × α)}

/-- There is at most one such list. -/
theorem unique (h : Enumerates value? rows) (h' : Enumerates value? rows') : rows = rows' := by
  refine h.ascending.eq_of_mem_iff h'.ascending ?_
  rintro ⟨key, value⟩
  rw [h.mem_iff, h'.mem_iff]

theorem mem_keys_iff (h : Enumerates value? rows) {key : String} :
    key ∈ rows.map Prod.fst ↔ (value? key).isSome = true := by
  rw [Option.isSome_iff_exists, List.mem_map]
  constructor
  · rintro ⟨⟨_, value⟩, hmem, rfl⟩
    exact ⟨value, (h.mem_iff _ value).1 hmem⟩
  · rintro ⟨value, hvalue⟩
    exact ⟨(key, value), (h.mem_iff key value).2 hvalue, rfl⟩

end Enumerates

theorem pairwise_sorted (t : Table α) : t.sorted.Pairwise Precedes := by
  have htrans : ∀ a b c : String × α, decide (a.1 ≤ b.1) = true → decide (b.1 ≤ c.1) = true →
      decide (a.1 ≤ c.1) = true := by
    intro a b c hab hbc
    exact decide_eq_true (String.le_trans (of_decide_eq_true hab) (of_decide_eq_true hbc))
  have htotal : ∀ a b : String × α, (decide (a.1 ≤ b.1) || decide (b.1 ≤ a.1)) = true := by
    intro a b
    simpa using String.le_total a.1 b.1
  have hle : t.sorted.Pairwise fun a b => a.1 ≤ b.1 :=
    (List.pairwise_mergeSort htrans htotal t.entries).imp fun h => of_decide_eq_true h
  have hkeys : (t.sorted.map Prod.fst).Nodup :=
    ((List.mergeSort_perm _ _).map Prod.fst).nodup_iff.2 t.nodup_keys
  have hne : t.sorted.Pairwise fun a b => a.1 ≠ b.1 := List.pairwise_map.1 hkeys
  refine (hle.and hne).imp ?_
  rintro a b ⟨hab, hdistinct⟩
  exact precedes_iff.2 (Std.lt_of_le_of_ne hab hdistinct)

/-- The entries of a table in order are the one list that shows it. -/
theorem enumerates_sorted (t : Table α) : Enumerates t.get? t.sorted where
  ascending := pairwise_sorted t
  mem_iff key value := by
    rw [sorted, List.mem_mergeSort, mem_entries_iff]

theorem enumerates_insertAll (start : Table α) (inserts : List (String × α)) :
    Enumerates (start.lastValue? inserts) (start.insertAll inserts).sorted := by
  have hvalues : (start.insertAll inserts).get? = start.lastValue? inserts :=
    funext fun key => get?_insertAll start inserts key
  rw [← hvalues]
  exact enumerates_sorted _

theorem keys_sorted_perm (start : Table α) (inserts : List (String × α)) :
    ((start.insertAll inserts).sorted.map Prod.fst).Perm
      (start.keys ++ inserts.map Prod.fst).dedup := by
  have hperm : ((start.insertAll inserts).sorted.map Prod.fst).Perm
      (start.insertAll inserts).keys := (List.mergeSort_perm _ _).map Prod.fst
  refine hperm.trans ((List.perm_ext_iff_of_nodup ?_ (List.nodup_dedup _)).2 ?_)
  · exact (start.insertAll inserts).nodup_keys
  · intro key
    rw [mem_keys_insertAll, List.mem_dedup, List.mem_append]

end Table

namespace BuiltinTable

/-- After any inserts into any table the listing is canonical: its rows are the one list that shows
the last insert of each key in strictly ascending byte order, one row for every distinct key, and the
nullable ones among them if only those are asked for. Look-ups and sizes agree with the rows, and a
history with the same last inserts has the same listings. -/
theorem listing_canonical (start : BuiltinTable) (inserts : List (String × Builtin)) :
    ∃ rows, Table.Enumerates (start.lastValue? inserts) rows ∧
      (∀ rows', Table.Enumerates (start.lastValue? inserts) rows' → rows' = rows) ∧
      (rows.map Prod.fst).Perm (start.keys ++ inserts.map Prod.fst).dedup ∧
      listing (start.insertAll inserts) false = rows.map line ∧
      listing (start.insertAll inserts) true =
        (rows.filter fun row => row.2.nullable).map line ∧
      (start.insertAll inserts).size = rows.length ∧
      (start.insertAll inserts).isEmpty = rows.isEmpty ∧
      (∀ d, of? (start.insertAll inserts) d = start.lastValue? inserts d.fullName ∧
        (hasType (start.insertAll inserts) d = true ↔
          d.fullName ∈ rows.map Prod.fst)) ∧
      ∀ (start' : BuiltinTable) (inserts' : List (String × Builtin)),
        (∀ key, start'.lastValue? inserts' key = start.lastValue? inserts key) →
        ∀ nullableOnly, listing (start'.insertAll inserts') nullableOnly =
          listing (start.insertAll inserts) nullableOnly := by
  have hrows := Table.enumerates_insertAll start inserts
  refine ⟨(start.insertAll inserts).sorted, hrows, fun rows' h => h.unique hrows,
    Table.keys_sorted_perm start inserts, ?_, rfl, ?_, ?_, ?_, ?_⟩
  · simp [listing]
  · exact (List.length_mergeSort _).symm
  · exact ((List.mergeSort_perm _ _).isEmpty_eq).symm
  · intro d
    refine ⟨Table.get?_insertAll start inserts d.fullName, ?_⟩
    rw [hrows.mem_keys_iff, hasType, Table.contains, Table.get?_insertAll]
    rfl
  · intro start' inserts' hlast nullableOnly
    have hrows' := Table.enumerates_insertAll start' inserts'
    rw [funext hlast] at hrows'
    rw [listing, listing, hrows'.unique hrows]

/-- Two names whose order by bytes is not that by units of 16 bits. -/
def glyphs : List (String × Builtin) := [("😀", ⟨"Face", true⟩), ("ﬀ", ⟨"Ligature", false⟩)]

/-- The same names, one of them with an insert that does not count. -/
def glyphHistory : List (String × Builtin) :=
  [("ﬀ", ⟨"Glyph", true⟩), ("😀", ⟨"Face", true⟩), ("ﬀ", ⟨"Ligature", false⟩)]

theorem glyphs_listed :
    (∀ key, Table.lastValue? .empty glyphHistory key = Table.lastValue? .empty glyphs key) ∧
      listing (Table.insertAll .empty glyphHistory) false =
        listing (Table.insertAll .empty glyphs) false ∧
      listing (Table.insertAll .empty glyphs) false =
        ["ﬀ => Ligature", "😀 => Face (nullable)"] := by
  have hlast : ∀ key, Table.lastValue? .empty glyphHistory key =
      Table.lastValue? .empty glyphs key := by
    intro key
    by_cases hligature : key = "ﬀ"
    · rw [hligature]
      decide
    · simp [Table.lastValue?, glyphHistory, glyphs, List.lookup_cons, beq_false_of_ne hligature]
  have hrows : Table.Enumerates (Table.lastValue? .empty glyphs)
      [("ﬀ", ⟨"Ligature", false⟩), ("😀", ⟨"Face", true⟩)] := by
    refine ⟨List.pairwise_pair.2 (Table.precedes_iff.2 (by decide)), ?_⟩
    intro key value
    by_cases hligature : key = "ﬀ"
    · simp [Table.lastValue?, glyphs, hligature, eq_comm]
    · by_cases hface : key = "😀"
      · simp [Table.lastValue?, glyphs, hface, List.lookup_cons, eq_comm]
      · simp [Table.lastValue?, glyphs, hligature, hface, List.lookup_cons,
          beq_false_of_ne hligature, beq_false_of_ne hface]
  obtain ⟨rows, _, hunique, _, hlisting, _, _, _, _, hsame⟩ := listing_canonical .empty glyphs
  refine ⟨hlast, hsame .empty glyphHistory hlast false, ?_⟩
  rw [hlisting, ← hunique _ hrows]
  decide

end BuiltinTable

end TypeProjection
