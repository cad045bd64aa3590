import TypeProjection.Proofs.ByteOrder
import TypeProjection.Proofs.Markers

/-!
# Names without their markers

A name has a marker if it is a stem that is not empty, the mark and one or more digits. There is at most
one such reading of a name, since the last mark is the one that counts. Without its marker a name is
its stem, and a name that has none stays as it is.

A name is kept as its bytes in UTF-8, and the marker may as well be looked for there: from the last byte
that is the mark's, with cuts at byte positions. A cut inside a character would fail. No cut does, and
both ways leave the same (`strip_exact`).
-/

namespace TypeProjection

/-! ## Byte positions -/

namespace Text

/-- The position of the last byte of a kind. -/
def lastIndexOf? (b : UInt8) : List UInt8 → Option Nat
  | [] => none
  | first :: rest =>
    match lastIndexOf? b rest with
    | some i => some (i + 1)
    | none => if first = b then some 0 else none

/-- The text in front of a byte position, unless the position is inside a character or behind the
text. -/
def upTo? (text : String) (i : Nat) : Option String :=
  (text.pos? ⟨i⟩).map fun p => (text.sliceTo p).copy

/-- The text from a byte position on, unless the position is inside a character or behind the text. -/
def startingAt? (text : String) (i : Nat) : Option String :=
  (text.pos? ⟨i⟩).map fun p => (text.sliceFrom p).copy

variable {b : UInt8}

theorem lastIndexOf?_eq_none {bs : List UInt8} (h : b ∉ bs) : lastIndexOf? b bs = none := by
  induction bs with
  | nil => rfl
  | cons first rest ih =>
    rw [List.mem_cons, not_or] at h
    rw [lastIndexOf?, ih h.2]
    exact if_neg (Ne.symm h.1)

theorem lastIndexOf?_append (front : List UInt8) {behind : List UInt8} (h : b ∉ behind) :
    lastIndexOf? b (front ++ b :: behind) = some front.length := by
  induction front with
  | nil =>
    rw [List.nil_append, lastIndexOf?, lastIndexOf?_eq_none h]
    exact if_pos rfl
  | cons first rest ih =>
    rw [List.cons_append, lastIndexOf?, ih]
    rfl

theorem exists_pos?_append (s t : String) :
    ∃ p, (s ++ t).pos? ⟨s.utf8ByteSize⟩ = some p ∧ p.Splits s t := by
  have hvalid : (⟨s.utf8ByteSize⟩ : String.Pos.Raw).IsValid (s ++ t) :=
    String.Pos.Raw.isValid_iff_exists_append.2 ⟨s, t, rfl, rfl⟩
  have hslice : (⟨s.utf8ByteSize⟩ : String.Pos.Raw).isValidForSlice (s ++ t).toSlice = true :=
    String.Pos.Raw.isValidForSlice_eq_true_iff.2 hvalid.toSlice
  refine ⟨(s ++ t).pos _ hvalid, ?_, rfl, String.offset_pos⟩
  rw [String.pos?, String.Slice.pos?, dif_pos hslice]
  rfl

theorem upTo?_append (s t : String) : upTo? (s ++ t) s.utf8ByteSize = some s := by
  obtain ⟨p, hp, hsplits⟩ := exists_pos?_append s t
  rw [upTo?, hp]
  exact congrArg some (p.splits.eq_left hsplits)

theorem startingAt?_append (s t : String) : startingAt? (s ++ t) s.utf8ByteSize = some t := by
  obtain ⟨p, hp, hsplits⟩ := exists_pos?_append s t
  rw [startingAt?, hp]
  exact congrArg some (p.splits.eq_right hsplits)

theorem bytes_append (s t : String) : bytes (s ++ t) = bytes s ++ bytes t := by
  rw [bytes_eq, bytes_eq, bytes_eq, String.toList_append, List.flatMap_append]

theorem length_bytes (text : String) : (bytes text).length = text.utf8ByteSize := rfl

end Text

namespace ArityMarker

open Text

/-! ## The bytes of the mark -/

/-- The mark in UTF-8, which is one byte. -/
def markByte : UInt8 := mark.toUInt8

theorem bytes_mark : bytes mark.toString = [markByte] := by
  decide

/-- No other code point has the byte of the mark, since all bytes of longer encodings are higher. -/
theorem eq_of_encodes_mem {code : Nat} {bs : List UInt8} (h : Encodes code bs)
    (hmem : markByte ∈ bs) : code = 0x60 := by
  have hbyte : markByte = .ofNat 0x60 := rfl
  rw [hbyte] at hmem
  cases h <;>
  · simp (disch := omega) only [List.mem_cons, List.not_mem_nil, or_false, ofNat_eq_ofNat_iff]
      at hmem
    omega

theorem mem_of_markByte_mem {text : String} (h : markByte ∈ bytes text) : mark ∈ text.toList := by
  rw [bytes_eq, List.mem_flatMap] at h
  obtain ⟨c, hc, hmem⟩ := h
  have hcode : c.toNat = mark.toNat := eq_of_encodes_mem (encodes_utf8EncodeChar c) hmem
  rwa [Char.toNat_inj.1 hcode] at hc

/-! ## Looking for the marker among the bytes -/

/-- Takes off a marker that is looked for from the last byte on that is the mark's. There is no result
if a cut falls inside a character. -/
def stripBytes? (name : String) : Option String :=
  match lastIndexOf? markByte (bytes name) with
  | none => some name
  | some i =>
    if 0 < i ∧ i + 1 < name.utf8ByteSize then do
      let digits ← startingAt? name (i + 1)
      if digits.toList.all Char.isDigit then upTo? name i else some name
    else some name

/-- The byte of the last mark stands where the stem ends, and the mark is one byte long. -/
theorem lastIndexOf?_append_mark (stem : String) {rest : String} (h : mark ∉ rest.toList) :
    lastIndexOf? markByte (bytes (stem ++ mark.toString ++ rest)) = some stem.utf8ByteSize := by
  have hbytes : bytes (stem ++ mark.toString ++ rest) = bytes stem ++ markByte :: bytes rest := by
    rw [bytes_append, bytes_append, bytes_mark, List.append_assoc]
    rfl
  rw [hbytes, lastIndexOf?_append _ (mt mem_of_markByte_mem h), length_bytes]

/-- Looking for the marker among the bytes cuts a name between characters only, and takes off the
same. -/
theorem stripBytes?_eq (name : String) : stripBytes? name = some (strip name) := by
  unfold stripBytes?
  by_cases hmark : mark ∈ name.toList
  · obtain ⟨stem, rest, hrest, rfl⟩ := exists_last_mark hmark
    have hone : (stem ++ mark.toString).utf8ByteSize = stem.utf8ByteSize + 1 :=
      String.utf8ByteSize_append
    have hfront : upTo? (stem ++ mark.toString ++ rest) stem.utf8ByteSize = some stem := by
      rw [String.append_assoc]
      exact upTo?_append stem _
    have hbehind : startingAt? (stem ++ mark.toString ++ rest) (stem.utf8ByteSize + 1) =
        some rest := by
      rw [← hone]
      exact startingAt?_append _ rest
    have hguard : 0 < stem.utf8ByteSize ∧
        stem.utf8ByteSize + 1 < (stem ++ mark.toString ++ rest).utf8ByteSize ↔
          stem ≠ "" ∧ rest ≠ "" := by
      rw [String.utf8ByteSize_append, hone, Ne, Ne, ← String.utf8ByteSize_eq_zero_iff,
        ← String.utf8ByteSize_eq_zero_iff]
      omega
    rw [lastIndexOf?_append_mark stem hrest, strip_append_mark stem hrest]
    simp only [hguard, hbehind, hfront, Option.bind_eq_bind, Option.bind_some]
    by_cases hends : stem ≠ "" ∧ rest ≠ ""
    · rw [if_pos hends]
      by_cases hall : rest.toList.all Char.isDigit = true
      · rw [if_pos hall, if_pos ⟨hends.1, hends.2, hall⟩]
      · rw [if_neg hall, if_neg fun h => hall h.2.2]
    · rw [if_neg hends, if_neg fun h => hends ⟨h.1, h.2.1⟩]
  · rw [lastIndexOf?_eq_none (mt mem_of_markByte_mem hmark), strip_of_not_mem hmark]

/-! ## Names with a marker -/

/-- A name is a stem that is not empty, with a marker behind it. -/
def HasMarker (stem name : String) : Prop :=
  ∃ digits : String, stem ≠ "" ∧ digits ≠ "" ∧ digits.toList.all Char.isDigit = true ∧
    name = stem ++ mark.toString ++ digits

theorem HasMarker.strip_eq {stem name : String} (h : HasMarker stem name) : strip name = stem := by
  obtain ⟨digits, hstem, hdigits, hall, rfl⟩ := h
  exact strip_append_marker hstem hdigits hall

/-- What is taken off is a marker. -/
theorem hasMarker_strip {name : String} (h : strip name ≠ name) : HasMarker (strip name) name := by
  rcases marks_strip name with hname | ⟨digits, hdigits, hall, hname⟩
  · exact absurd hname.symm h
  · have hne : name ≠ "" := by
      rintro rfl
      simp at hname
    refine ⟨String.ofList digits, strip_ne_empty hne, by simpa using hdigits, by simpa using hall, ?_⟩
    apply String.toList_injective
    simpa using hname

theorem HasMarker.ne {stem name : String} (h : HasMarker stem name) : name ≠ stem := by
  obtain ⟨digits, -, -, -, rfl⟩ := h
  intro heq
  have hlength := congrArg String.length heq
  rw [String.length_append, String.length_append] at hlength
  have hone : mark.toString.length = 1 := by decide
  omega

theorem strip_eq_self_iff {name : String} : strip name = name ↔ ¬ ∃ stem, HasMarker stem name := by
  constructor
  · rintro hself ⟨stem, h⟩
    exact h.ne (hself.symm.trans h.strip_eq)
  · intro hnone
    by_cases hself : strip name = name
    · exact hself
    · exact absurd ⟨_, hasMarker_strip hself⟩ hnone

/-- **A name loses its marker and nothing else.** If a name is a stem that is not empty with the mark
and digits behind it, the stem is what is left, and no other stem can be read in the name. Any other
name stays as it is. Looking for the marker among the bytes of the name gives the same, and never cuts
a character. Of a name that is not empty something is left, and a marker that is put behind it can be
taken off again. -/
theorem strip_exact (name : String) :
    (∀ stem, HasMarker stem name →
      strip name = stem ∧ ∀ other, HasMarker other name → other = stem) ∧
    (strip name = name ↔ ¬ ∃ stem, HasMarker stem name) ∧
    stripBytes? name = some (strip name) ∧
    (name ≠ "" → strip name ≠ "" ∧ ∀ n, strip (name ++ text n) = name) := by
  refine ⟨?marked, strip_eq_self_iff, stripBytes?_eq name, ?nonempty⟩
  case marked =>
    intro stem h
    refine ⟨h.strip_eq, fun other hother => ?_⟩
    rw [← hother.strip_eq, h.strip_eq]
  case nonempty =>
    intro hne
    exact ⟨strip_ne_empty hne, strip_append_text hne⟩

/-- A name with letters of more than one byte and two markers. The first of them stays. -/
theorem marked_twice_stripped :
    HasMarker "Größe`1" "Größe`1`12" ∧ "Größe`1`12" ≠ "" ∧
      strip "Größe`1`12" = "Größe`1" ∧ stripBytes? "Größe`1`12" = some "Größe`1" ∧
      (∀ other, HasMarker other "Größe`1`12" → other = "Größe`1") ∧
      strip ("Größe`1`12" ++ text 3) = "Größe`1`12" := by
  have hmarker : HasMarker "Größe`1" "Größe`1`12" := ⟨"12", by decide⟩
  have hne : "Größe`1`12" ≠ "" := by decide
  obtain ⟨hmarked, -, hbytes, hnonempty⟩ := strip_exact "Größe`1`12"
  obtain ⟨hstrip, hunique⟩ := hmarked _ hmarker
  exact ⟨hmarker, hne, hstrip, hbytes.trans (congrArg some hstrip), hunique, (hnonempty hne).2 3⟩

end ArityMarker

end TypeProjection
