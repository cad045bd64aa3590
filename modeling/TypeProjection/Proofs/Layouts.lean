import Mathlib.Data.List.Forall2
import Mathlib.Data.List.Nodup
import TypeProjection.Json

/-!
# Layouts of JSON values

A layout says which fields an object has, what each has to say and which may be left out. Its objects
are all those that say the same: their fields stand in any order and among fields of other names. The
list of the fields in order says the same as well. The main fact is that reading a field by name, or an
item by place, gives back what the field has to say (`Layout.IsObject.field?_eq`,
`Layout.AreItems.item?_eq`).
-/

namespace TypeProjection

namespace Json

/-- The lists of values for the members of a list. -/
def IsListOf {α : Type} (IsFor : α → Json → Prop) (members : List α) (v : Json) : Prop :=
  ∃ items, v = .list items ∧ List.Forall₂ IsFor members items

/-- A field of an object that is written for something. -/
structure Field where
  key : String
  /-- The values that say what the field has to say. -/
  Holds : Json → Prop
  /-- Whether the field has to say no more than its default does. -/
  IsDefault : Prop

/-- The fields of an object in order. No two have the same name. -/
structure Layout where
  fields : List Field
  /-- Names that mean something in such an object but do not stand in this one. -/
  reserved : List String
  /-- The values that fields of other names may hold. -/
  Allows : Json → Prop
  nodup_names : (fields.map Field.key ++ reserved).Nodup

namespace Field

/-- A field of which a single value says what it has to say. -/
def exactly (key : String) (value : Json) (isDefault : Prop) : Field :=
  ⟨key, (· = value), isDefault⟩

/-- A field with a list, which is empty by default. -/
def listOf {α : Type} (key : String) (IsFor : α → Json → Prop) (members : List α) : Field :=
  ⟨key, IsListOf IsFor members, members = []⟩

/-- Whether a value, or no value at all, says what the field has to say. -/
def Fits (f : Field) : Option Json → Prop
  | some v => f.Holds v
  | none => f.IsDefault

/-- Whether a reader takes out of the field what it has to say. -/
structure ReadBy {α : Type} (f : Field) (decode : Json → Option α) (default? : Option α)
    (a : α) : Prop where
  value : ∀ v, f.Holds v → decode v = some a
  default : f.IsDefault → default? = some a

end Field

namespace Layout

def names (l : Layout) : List String := l.fields.map Field.key ++ l.reserved

/-- The objects of a layout: that of all fields in order, and what becomes of it when fields change
places, fields of other names come in and fields that hold their default are left out. -/
inductive IsObject (l : Layout) : List (String × Json) → Prop where
  | inOrder {fields : List (String × Json)}
      (holds : List.Forall₂ (fun f field => field.1 = f.key ∧ f.Holds field.2) l.fields fields) :
      IsObject l fields
  | permuted {fields fields' : List (String × Json)} (h : IsObject l fields)
      (perm : fields.Perm fields') : IsObject l fields'
  | extended {fields : List (String × Json)} {key : String} {v : Json} (h : IsObject l fields)
      (unknown : key ∉ l.names) (allowed : l.Allows v) : IsObject l ((key, v) :: fields)
  | leftOut {fields : List (String × Json)} {f : Field} {v : Json}
      (h : IsObject l ((f.key, v) :: fields)) (mem : f ∈ l.fields) (isDefault : f.IsDefault) :
      IsObject l fields

/-- The values of fields in order, as far as what is left holds its default. -/
inductive AreItems : List Field → List Json → Prop where
  | stop {fields : List Field} (isDefault : ∀ f ∈ fields, f.IsDefault) : AreItems fields []
  | next {f : Field} {fields : List Field} {v : Json} {items : List Json} (holds : f.Holds v)
      (rest : AreItems fields items) : AreItems (f :: fields) (v :: items)

/-- The values of a layout: an object, or the list of its fields. -/
inductive IsValue (l : Layout) : Json → Prop where
  | object {fields : List (String × Json)} (h : l.IsObject fields) : IsValue l (.object fields)
  | list {items : List Json} (h : AreItems l.fields items) : IsValue l (.list items)

end Layout

/-! ## Reading the values of a layout -/

theorem exists_of_forall₂_mem {α β : Type} {R : α → β → Prop} {as : List α} {bs : List β} {b : β}
    (h : List.Forall₂ R as bs) (hb : b ∈ bs) : ∃ a ∈ as, R a b := by
  induction h with
  | nil => cases hb
  | @cons a _ as _ hab _ ih =>
    rcases List.mem_cons.1 hb with rfl | hrest
    · exact ⟨a, List.mem_cons_self, hab⟩
    · obtain ⟨a', ha', hr⟩ := ih hrest
      exact ⟨a', List.mem_cons_of_mem a ha', hr⟩

section
variable {key : String} {fields fields' : List (String × Json)}

theorem valuesOf_eq_nil (h : key ∉ fields.map Prod.fst) : valuesOf key fields = [] := by
  rw [valuesOf, List.filterMap_eq_nil_iff]
  intro field hfield
  have hne : field.1 ≠ key := by
    intro heq
    exact h (heq ▸ List.mem_map_of_mem hfield)
  rw [if_neg hne]

theorem valuesOf_perm (h : fields.Perm fields') :
    (valuesOf key fields).Perm (valuesOf key fields') :=
  h.filterMap _

/-- A key that stands once or not at all is as good as an item. -/
theorem field?_eq_item? {α : Type} {decode : Json → Option α} {default? : Option α}
    {v? : Option Json} (h : valuesOf key fields = v?.toList) :
    field? decode default? key fields = item? decode default? v? := by
  rw [field?, h]
  cases v? <;> rfl

end

section
variable {α : Type} {decode : Json → Option α} {default? : Option α} {a : α} {f : Field}

theorem Field.readBy_exactly {key : String} {value : Json} {isDefault : Prop}
    (hread : decode value = some a) (hdefault : isDefault → default? = some a) :
    (Field.exactly key value isDefault).ReadBy decode default? a where
  value := by
    rintro v rfl
    exact hread
  default := hdefault

theorem Field.Fits.item?_eq {v? : Option Json} (h : f.Fits v?)
    (hread : f.ReadBy decode default? a) : item? decode default? v? = some a := by
  cases v? with
  | none => exact hread.default h
  | some v => exact hread.value v h

/-- The members of a list are read one by one. -/
theorem mapM_eq_of_forall₂ {IsFor : α → Json → Prop} {members : List α} {items : List Json}
    (h : List.Forall₂ IsFor members items)
    (hread : ∀ a ∈ members, ∀ v, IsFor a v → decode v = some a) :
    items.mapM decode = some members := by
  induction h with
  | nil => rfl
  | @cons a v rest items hv _ ih =>
    have hhead : decode v = some a := hread a List.mem_cons_self v hv
    have htail : items.mapM decode = some rest := by
      apply ih
      intro b hb
      exact hread b (List.mem_cons_of_mem a hb)
    rw [List.mapM_cons, hhead, htail]
    rfl

theorem Field.readBy_listOf {key : String} {IsFor : α → Json → Prop} {members : List α}
    (hread : ∀ a ∈ members, ∀ v, IsFor a v → decode v = some a) :
    (Field.listOf key IsFor members).ReadBy (listOf? decode) (some []) members where
  value := by
    rintro v ⟨items, rfl, hitems⟩
    exact mapM_eq_of_forall₂ hitems hread
  default := fun hnone => congrArg some hnone.symm

/-- A list with one value for each member is a value of the field. -/
theorem Field.holds_listOf {key : String} {IsFor : α → Json → Prop} {members : List α}
    {encode : α → Json} (h : ∀ a ∈ members, IsFor a (encode a)) :
    (Field.listOf key IsFor members).Holds (.list (members.map encode)) := by
  refine ⟨members.map encode, rfl, ?_⟩
  rw [List.forall₂_map_right_iff, List.forall₂_same]
  exact h

end

namespace Layout

variable {l : Layout} {fields : List (String × Json)}

theorem keys_eq {fs : List Field}
    (h : List.Forall₂ (fun f field => field.1 = f.key ∧ f.Holds field.2) fs fields) :
    fields.map Prod.fst = fs.map Field.key := by
  induction h with
  | nil => rfl
  | cons hfield _ ih => rw [List.map_cons, List.map_cons, hfield.1, ih]

/-- Where all fields stand in order there is one value for each. -/
theorem exists_holds {fs : List Field} {f : Field}
    (h : List.Forall₂ (fun f field => field.1 = f.key ∧ f.Holds field.2) fs fields)
    (hnodup : (fs.map Field.key).Nodup) (hf : f ∈ fs) :
    ∃ v, valuesOf f.key fields = [v] ∧ f.Holds v := by
  induction h with
  | nil => cases hf
  | @cons g field fs fields hfield hrest ih =>
    obtain ⟨key, v⟩ := field
    obtain ⟨rfl, hv⟩ := hfield
    rw [List.map_cons, List.nodup_cons] at hnodup
    rcases List.mem_cons.1 hf with rfl | hmem
    · have hnone : valuesOf f.key fields = [] := by
        apply valuesOf_eq_nil
        rw [keys_eq hrest]
        exact hnodup.1
      refine ⟨v, ?_, hv⟩
      rw [valuesOf_cons, if_pos rfl, hnone]
    · have hne : g.key ≠ f.key := by
        intro heq
        exact hnodup.1 (heq ▸ List.mem_map_of_mem hmem)
      rw [valuesOf_cons, if_neg hne]
      exact ih hnodup.2 hmem

theorem valuesOf_cons_of_unknown {key other : String} {v : Json} (hother : other ∉ l.names)
    (hkey : key ∈ l.names) : valuesOf key ((other, v) :: fields) = valuesOf key fields := by
  have hne : other ≠ key := by
    rintro rfl
    exact hother hkey
  rw [valuesOf_cons, if_neg hne]

/-- Names that do not stand in an object of the layout never come into it. -/
theorem IsObject.valuesOf_reserved (h : l.IsObject fields) {key : String}
    (hkey : key ∈ l.reserved) : valuesOf key fields = [] := by
  induction h with
  | inOrder hholds =>
    apply valuesOf_eq_nil
    rw [keys_eq hholds]
    intro hmem
    exact (List.nodup_append.1 l.nodup_names).2.2 key hmem key hkey rfl
  | permuted _ hperm ih => exact List.nil_perm.1 (ih ▸ valuesOf_perm hperm)
  | extended _ hunknown _ ih =>
    rw [valuesOf_cons_of_unknown hunknown (List.mem_append_right _ hkey)]
    exact ih
  | leftOut _ _ _ ih =>
    rw [valuesOf_cons] at ih
    split at ih
    · cases ih
    · exact ih

/-- Every field stands once in an object of the layout, or is left out with its default. -/
theorem IsObject.exists_fits (h : l.IsObject fields) {f : Field} (hf : f ∈ l.fields) :
    ∃ v?, valuesOf f.key fields = v?.toList ∧ f.Fits v? := by
  have hnodup : (l.fields.map Field.key).Nodup := (List.nodup_append.1 l.nodup_names).1
  induction h with
  | inOrder hholds =>
    obtain ⟨v, hvalue, hv⟩ := exists_holds hholds hnodup hf
    exact ⟨some v, hvalue, hv⟩
  | @permuted fields fields' _ hperm ih =>
    obtain ⟨v?, hvalue, hfits⟩ := ih
    refine ⟨v?, ?_, hfits⟩
    have hvalues : (valuesOf f.key fields).Perm (valuesOf f.key fields') := valuesOf_perm hperm
    rw [hvalue] at hvalues
    cases v? with
    | none => exact List.nil_perm.1 hvalues
    | some v => exact (List.singleton_perm.1 hvalues).symm
  | extended _ hunknown _ ih =>
    rw [valuesOf_cons_of_unknown hunknown (List.mem_append_left _ (List.mem_map_of_mem hf))]
    exact ih
  | @leftOut rest g v _ hg hdefault ih =>
    obtain ⟨v?, hvalue, hfits⟩ := ih
    rw [valuesOf_cons] at hvalue
    by_cases hkey : g.key = f.key
    · -- The value that is left out was the only one of its name.
      obtain rfl : g = f := List.inj_on_of_nodup_map hnodup hg hf hkey
      rw [if_pos rfl] at hvalue
      cases v? with
      | none => cases hvalue
      | some w => exact ⟨none, (List.cons.inj hvalue).2, hdefault⟩
    · rw [if_neg hkey] at hvalue
      exact ⟨v?, hvalue, hfits⟩

theorem IsObject.field?_eq {α : Type} {decode : Json → Option α} {default? : Option α} {a : α}
    {f : Field} (h : l.IsObject fields) (hf : f ∈ l.fields) (hread : f.ReadBy decode default? a) :
    field? decode default? f.key fields = some a := by
  obtain ⟨v?, hvalue, hfits⟩ := h.exists_fits hf
  rw [field?_eq_item? hvalue]
  exact hfits.item?_eq hread

/-- What holds of all values that the layout asks for or allows holds of all that stand there. -/
theorem IsObject.forall_values {P : Json → Prop} (h : l.IsObject fields)
    (hholds : ∀ f ∈ l.fields, ∀ v, f.Holds v → P v) (hallows : ∀ v, l.Allows v → P v) :
    ∀ field ∈ fields, P field.2 := by
  induction h with
  | inOrder hfields =>
    intro field hmem
    obtain ⟨f, hf, _, hv⟩ := exists_of_forall₂_mem hfields hmem
    exact hholds f hf field.2 hv
  | permuted _ hperm ih =>
    intro field hmem
    exact ih field (hperm.mem_iff.2 hmem)
  | extended _ _ hallowed ih =>
    intro field hmem
    rcases List.mem_cons.1 hmem with rfl | hrest
    · exact hallows _ hallowed
    · exact ih field hrest
  | leftOut _ _ _ ih =>
    intro field hmem
    exact ih field (List.mem_cons_of_mem _ hmem)

theorem AreItems.fits {fs : List Field} {items : List Json} (h : AreItems fs items) :
    ∀ (i : Nat) (f : Field), fs[i]? = some f → f.Fits items[i]? := by
  induction h with
  | stop hdefault =>
    intro i f hf
    exact hdefault f (List.mem_of_getElem? hf)
  | next hv _ ih =>
    intro i f hf
    cases i with
    | zero =>
      obtain rfl := Option.some.inj hf
      exact hv
    | succ i => exact ih i f hf

theorem AreItems.length_le {fs : List Field} {items : List Json} (h : AreItems fs items) :
    items.length ≤ fs.length := by
  induction h with
  | stop _ => exact Nat.zero_le _
  | next _ _ ih => exact Nat.succ_le_succ ih

/-- An item stands for every field up to one without a default. -/
theorem AreItems.exists_holds {fs : List Field} {items : List Json} (h : AreItems fs items)
    {i j : Nat} {f g : Field} (hg : fs[j]? = some g) (hrequired : ¬ g.IsDefault) (hij : i ≤ j)
    (hf : fs[i]? = some f) : ∃ v, items[i]? = some v ∧ f.Holds v := by
  have hj : j < items.length := by
    by_contra hshort
    have hfits := h.fits j g hg
    rw [List.getElem?_eq_none (Nat.le_of_not_lt hshort)] at hfits
    exact hrequired hfits
  have hitem : items[i]? = some items[i] := List.getElem?_eq_getElem (Nat.lt_of_le_of_lt hij hj)
  have hfits := h.fits i f hf
  rw [hitem] at hfits
  exact ⟨_, hitem, hfits⟩

theorem AreItems.item?_eq {α : Type} {decode : Json → Option α} {default? : Option α} {a : α}
    {fs : List Field} {items : List Json} (h : AreItems fs items) {i : Nat} {f : Field}
    (hf : fs[i]? = some f) (hread : f.ReadBy decode default? a) :
    item? decode default? items[i]? = some a :=
  (h.fits i f hf).item?_eq hread

end Layout

/-! ## Readable values -/

theorem allReadable_iff {items : List Json} :
    allReadable items = true ↔ ∀ v ∈ items, v.isReadable = true := by
  induction items with
  | nil => simp [allReadable]
  | cons v rest ih => simp [allReadable, ih]

theorem allFieldsReadable_iff {fields : List (String × Json)} :
    allFieldsReadable fields = true ↔ ∀ field ∈ fields, field.2.isReadable = true := by
  induction fields with
  | nil => simp [allFieldsReadable]
  | cons field rest ih =>
    obtain ⟨key, v⟩ := field
    rw [allFieldsReadable, Bool.and_eq_true, ih, List.forall_mem_cons]

end Json

end TypeProjection
