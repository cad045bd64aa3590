import TypeProjection.Catalog

/-!
# Markers at the end of qualified names

A marker is looked for at the last mark of a name (`strip_append_mark`). It is taken off a whole
qualified name, although it belongs to the last part of it. Both come to the same (`strip_qualified`)
unless that part is a marker and nothing else, and no definition in order is named so
(`startsName_markedName`). What is taken off is one marker or nothing (`marks_strip`).
-/

namespace TypeProjection

namespace ArityMarker

/-! ## The last mark -/

/-- A name without a mark has no marker. -/
theorem stripChars_of_not_mem {name : List Char} (h : mark ∉ name) : stripChars name = name := by
  unfold stripChars
  cases hdrop : name.reverse.dropWhile Char.isDigit with
  | nil => rfl
  | cons c before =>
    have hc : c ∈ name.reverse := (List.dropWhile_suffix _).subset (hdrop ▸ List.mem_cons_self)
    have hne : c ≠ mark := fun heq => h (heq ▸ List.mem_reverse.1 hc)
    simp [hne]

/-- In a name with a mark, a marker is looked for at the last one. -/
theorem stripChars_append_mark (stem : List Char) {rest : List Char} (h : mark ∉ rest) :
    stripChars (stem ++ mark :: rest) =
      if stem ≠ [] ∧ rest ≠ [] ∧ rest.all Char.isDigit = true then stem
      else stem ++ mark :: rest := by
  have hmark : ¬ mark.isDigit = true := by decide
  have hreverse : (stem ++ mark :: rest).reverse = rest.reverse ++ mark :: stem.reverse := by
    simp
  unfold stripChars
  rw [hreverse]
  cases hall : rest.all Char.isDigit with
  | true =>
    have hall' : ∀ c ∈ rest.reverse, c.isDigit = true := by simpa using hall
    rw [List.takeWhile_append_of_pos hall', List.dropWhile_append_of_pos hall',
      List.takeWhile_cons_of_neg hmark, List.dropWhile_cons_of_neg hmark]
    simp [and_comm]
  | false =>
    obtain ⟨c, before, hdrop⟩ : ∃ c before, rest.reverse.dropWhile Char.isDigit = c :: before := by
      apply List.exists_cons_of_ne_nil
      intro hdrop
      have hany := List.any_dropWhile (p := Char.isDigit) (l := rest.reverse)
      rw [hdrop, List.all_reverse, hall] at hany
      cases hany
    -- The digits at the end stand behind a character of the rest, which is not the mark.
    have hc : c ∈ rest.reverse := (List.dropWhile_suffix _).subset (hdrop ▸ List.mem_cons_self)
    have hne : c ≠ mark := fun heq => h (heq ▸ List.mem_reverse.1 hc)
    rw [List.dropWhile_append, hdrop]
    simp [hne]

/-- A name with a mark can be read at the last one. -/
theorem exists_last_mark {name : String} (h : mark ∈ name.toList) :
    ∃ stem rest : String, mark ∉ rest.toList ∧ name = stem ++ mark.toString ++ rest := by
  obtain ⟨behind, front, hname, hbehind⟩ := List.eq_append_cons_of_mem (List.mem_reverse.2 h)
  refine ⟨String.ofList front.reverse, String.ofList behind.reverse, ?_, ?_⟩
  · simpa using hbehind
  · apply String.toList_injective
    have hchars := congrArg List.reverse hname
    simpa using hchars

theorem strip_of_not_mem {name : String} (h : mark ∉ name.toList) : strip name = name := by
  rw [strip, stripChars_of_not_mem h, String.ofList_toList]

theorem strip_append_mark (stem : String) {rest : String} (h : mark ∉ rest.toList) :
    strip (stem ++ mark.toString ++ rest) =
      if stem ≠ "" ∧ rest ≠ "" ∧ rest.toList.all Char.isDigit = true then stem
      else stem ++ mark.toString ++ rest := by
  have hchars : (stem ++ mark.toString ++ rest).toList = stem.toList ++ mark :: rest.toList := by
    simp
  apply String.toList_injective
  rw [strip, String.toList_ofList, hchars, stripChars_append_mark _ h, apply_ite String.toList,
    hchars]
  simp only [Ne, String.toList_eq_nil_iff]

/-- A text without marks that is not all digits holds no part of a marker. -/
theorem strip_append_of_not_digits (front : String) {tail : String} (hmark : mark ∉ tail.toList)
    (hdigits : tail.toList.all Char.isDigit = false) : strip (front ++ tail) = front ++ tail := by
  by_cases hfront : mark ∈ front.toList
  · obtain ⟨stem, rest, hrest, rfl⟩ := exists_last_mark hfront
    have hbehind : mark ∉ (rest ++ tail).toList := by
      simp [hrest, hmark]
    rw [String.append_assoc, strip_append_mark stem hbehind, if_neg]
    rintro ⟨-, -, hall⟩
    rw [String.toList_append, List.all_append, hdigits, Bool.and_false] at hall
    cases hall
  · apply strip_of_not_mem
    simp [hfront, hmark]

/-! ## Qualified names -/

/-- A marker is taken off a qualified name by taking it off the name. The name must not begin with the
mark: behind other text, such a name is a marker. -/
theorem strip_qualified (qualifier : String) {name : String} (h : startsName name = false) :
    strip (qualifier ++ "." ++ name) = qualifier ++ "." ++ strip name := by
  by_cases hname : mark ∈ name.toList
  · obtain ⟨stem, rest, hrest, rfl⟩ := exists_last_mark hname
    have hstem : stem ≠ "" := by
      rintro rfl
      simp [startsName] at h
    have hfront : qualifier ++ "." ++ stem ≠ "" := by
      simp
    have hwhole : qualifier ++ "." ++ (stem ++ mark.toString ++ rest) =
        qualifier ++ "." ++ stem ++ mark.toString ++ rest := by
      simp only [String.append_assoc]
    rw [hwhole, strip_append_mark _ hrest, strip_append_mark stem hrest]
    by_cases hmarker : rest ≠ "" ∧ rest.toList.all Char.isDigit = true
    · rw [if_pos ⟨hfront, hmarker⟩, if_pos ⟨hstem, hmarker⟩]
    · rw [if_neg fun h => hmarker h.2, if_neg fun h => hmarker h.2, hwhole]
  · -- The last mark, if there is one, is in the qualifier, and the dot is no digit.
    have hdot : mark ≠ '.' := by decide
    rw [strip_of_not_mem hname, String.append_assoc]
    exact strip_append_of_not_digits qualifier (by simp [hname, hdot]) (by simp)

/-! ## What is taken off -/

/-- A name is a stem with at most one arity marker behind it. -/
def Marks (stem name : String) : Prop :=
  name = stem ∨ ∃ digits : List Char, digits ≠ [] ∧ digits.all Char.isDigit = true ∧
    name.toList = stem.toList ++ mark :: digits

/-- Taking the marker off a name takes off one marker or nothing. -/
theorem marks_strip (name : String) : Marks (strip name) name := by
  by_cases hmark : mark ∈ name.toList
  · obtain ⟨stem, rest, hrest, rfl⟩ := exists_last_mark hmark
    rw [strip_append_mark stem hrest]
    split
    · rename_i hmarker
      refine Or.inr ⟨rest.toList, ?_, hmarker.2.2, by simp⟩
      simpa using hmarker.2.1
    · exact Or.inl rfl
  · exact Or.inl (strip_of_not_mem hmark).symm

/-- Nothing is left of an empty name only. A marker that is all of a name stays. -/
theorem strip_ne_empty {name : String} (h : name ≠ "") : strip name ≠ "" := by
  by_cases hmark : mark ∈ name.toList
  · obtain ⟨stem, rest, hrest, rfl⟩ := exists_last_mark hmark
    rw [strip_append_mark stem hrest]
    split
    · rename_i hmarker
      exact hmarker.1
    · exact h
  · rwa [strip_of_not_mem hmark]

/-- A marker behind a name that is not empty is taken off, and nothing else. -/
theorem strip_append_marker {stem digits : String} (hstem : stem ≠ "") (hdigits : digits ≠ "")
    (hall : digits.toList.all Char.isDigit = true) :
    strip (stem ++ mark.toString ++ digits) = stem := by
  have hmark : mark ∉ digits.toList := by
    intro hmem
    exact absurd (List.all_eq_true.1 hall mark hmem) (by decide)
  rw [strip_append_mark stem hmark, if_pos ⟨hstem, hdigits, hall⟩]

/-- The marker that a name is given can be taken off again. -/
theorem strip_append_text {name : String} (h : name ≠ "") (n : Nat) :
    strip (name ++ text n) = name := by
  have hchars : (toString n).toList = Nat.toDigits 10 n := by
    simp
  have hdigits : toString n ≠ "" := by
    rw [Ne, ← String.toList_eq_nil_iff, hchars]
    exact Nat.toDigits_ne_nil
  have hall : (toString n).toList.all Char.isDigit = true := by
    rw [hchars, List.all_eq_true]
    exact fun c hc => Nat.isDigit_of_mem_toDigits (by decide) (by decide) hc
  rw [text, ← String.append_assoc, strip_append_marker h hdigits hall]

end ArityMarker

namespace Catalog

theorem blankPart?_eq_none {definition : Definition} (h : blankPart? definition = none) :
    definition.hasBlankName = false ∧ definition.hasBlankNamespace = false := by
  unfold blankPart? at h
  split at h
  · cases h
  · split at h
    · cases h
    · rename_i hname hns
      exact ⟨by simpa using hname, by simpa using hns⟩

/-- The name of a definition that is in order is not empty. -/
theorem name_ne_empty {definition : Definition} (h : blankPart? definition = none) :
    definition.name.toList ≠ [] := by
  intro hempty
  have hblank := (blankPart?_eq_none h).1
  rw [Definition.hasBlankName, ArityMarker.strip, hempty] at hblank
  cases hblank

/-- The name of a definition that is in order does not begin with the mark, the marker that it may
get included. -/
theorem startsName_markedName {definition : Definition} (h : blankPart? definition = none) :
    ArityMarker.startsName definition.markedName = false := by
  have hblank := (blankPart?_eq_none h).1
  rw [Definition.hasBlankName, Bool.or_eq_false_iff] at hblank
  obtain ⟨_, hstart⟩ := hblank
  unfold Definition.markedName
  split
  · exact hstart
  · obtain ⟨c, rest, hchars⟩ := List.exists_cons_of_ne_nil (name_ne_empty h)
    rw [ArityMarker.startsName, hchars] at hstart
    rw [ArityMarker.startsName, String.toList_append, hchars]
    exact hstart

/-- The name of a definition that is in order leaves something when its marker is taken off. -/
theorem strip_markedName_ne_empty {definition : Definition} (h : blankPart? definition = none) :
    ArityMarker.strip definition.markedName ≠ "" := by
  refine ArityMarker.strip_ne_empty ?_
  intro hempty
  have hname := name_ne_empty h
  have hchars := congrArg String.toList hempty
  unfold Definition.markedName at hchars
  split at hchars
  · exact hname hchars
  · rw [String.toList_append] at hchars
    exact hname (List.append_eq_nil_iff.1 hchars).1

end Catalog

end TypeProjection
