import TypeProjection.Projection
import TypeProjection.Proofs.Provenance

/-!
# Full names identify types

A full name nests: a closed type holds the full names of its arguments in brackets, and an array has
a pair of brackets at its end. Where no declared name holds a bracket of its own the nesting can be
undone, since brackets match (`Balanced.eq_of_closed`) and the last two characters of a name say how
it was made. So the identity of a type by its full name is the identity of its structure
(`resolve_fullName_injective`).
-/

namespace TypeProjection

/-! ## Matching brackets -/

namespace Brackets

def isBracket (c : Char) : Bool := c == '[' || c == ']'

def isFree (text : String) : Bool := text.toList.all fun c => !isBracket c

/-- The number of open brackets after one more character. No bracket may close that is not open. -/
def step (opened : Nat) (c : Char) : Option Nat :=
  if c = '[' then some (opened + 1)
  else if c = ']' then
    match opened with
    | 0 => none
    | opened + 1 => some opened
  else some opened

/-- A text that leaves as many brackets open as it finds, and closes none of those. -/
def Balanced (cs : List Char) : Prop := ∀ opened, cs.foldlM step opened = some opened

theorem balanced_nil : Balanced [] := fun _ => rfl

theorem step_of_not_isBracket {c : Char} (h : isBracket c = false) (opened : Nat) :
    step opened c = some opened := by
  simp only [isBracket, Bool.or_eq_false_iff, beq_eq_false_iff_ne] at h
  unfold step
  rw [if_neg h.1, if_neg h.2]

theorem balanced_of_all {cs : List Char} (h : cs.all (fun c => !isBracket c) = true) :
    Balanced cs := by
  induction cs with
  | nil => exact balanced_nil
  | cons c rest ih =>
    rw [List.all_cons, Bool.and_eq_true, Bool.not_eq_true'] at h
    intro opened
    rw [List.foldlM_cons, step_of_not_isBracket h.1]
    exact ih h.2 opened

theorem Balanced.append {cs ds : List Char} (hcs : Balanced cs) (hds : Balanced ds) :
    Balanced (cs ++ ds) := by
  intro opened
  rw [List.foldlM_append, hcs opened]
  exact hds opened

theorem Balanced.enclose {cs : List Char} (h : Balanced cs) : Balanced ('[' :: (cs ++ [']'])) := by
  intro opened
  have hopen : step opened '[' = some (opened + 1) := rfl
  rw [List.foldlM_cons, hopen]
  show (cs ++ [']']).foldlM step (opened + 1) = some opened
  rw [List.foldlM_append, h (opened + 1)]
  rfl

/-- Behind a balanced text a closing bracket has nothing to close. -/
theorem Balanced.not_closed {cs : List Char} (h : Balanced cs) (rest : List Char) :
    ¬ Balanced (cs ++ ']' :: rest) := by
  intro hclosed
  have hzero := hclosed 0
  rw [List.foldlM_append, h 0] at hzero
  cases hzero

/-- Two texts that a character follows are equal if neither goes on with that character behind the
other. -/
theorem eq_of_followed {cs ds rest rest' : List Char} {c : Char}
    (hcs : ∀ more, cs ≠ ds ++ c :: more) (hds : ∀ more, ds ≠ cs ++ c :: more)
    (h : cs ++ c :: rest = ds ++ c :: rest') : cs = ds ∧ rest = rest' := by
  rcases List.append_eq_append_iff.1 h with ⟨more, hmore, htail⟩ | ⟨more, hmore, htail⟩
  · cases more with
    | nil =>
      rw [List.append_nil] at hmore
      exact ⟨hmore.symm, (List.cons.inj htail).2⟩
    | cons d more =>
      obtain ⟨rfl, _⟩ := List.cons.inj htail
      exact absurd hmore (hds more)
  · cases more with
    | nil =>
      rw [List.append_nil] at hmore
      exact ⟨hmore, ((List.cons.inj htail).2).symm⟩
    | cons d more =>
      obtain ⟨rfl, _⟩ := List.cons.inj htail
      exact absurd hmore (hcs more)

/-- A balanced text ends where a bracket closes that closes nothing in it. -/
theorem Balanced.eq_of_closed {cs ds rest rest' : List Char} (hcs : Balanced cs)
    (hds : Balanced ds) (h : cs ++ ']' :: rest = ds ++ ']' :: rest') : cs = ds ∧ rest = rest' := by
  refine eq_of_followed ?_ ?_ h
  · rintro more rfl
    exact hds.not_closed more hcs
  · rintro more rfl
    exact hcs.not_closed more hds

theorem not_mem_of_isFree {text : String} (h : isFree text = true) {c : Char}
    (hc : isBracket c = true) : c ∉ text.toList := by
  intro hmem
  have hfree := List.all_eq_true.1 h c hmem
  rw [hc] at hfree
  cases hfree

/-- A text without brackets ends where a bracket stands. -/
theorem eq_of_isFree {text text' : String} {rest rest' : List Char} (h : isFree text = true)
    (h' : isFree text' = true) (heq : text.toList ++ '[' :: rest = text'.toList ++ '[' :: rest') :
    text = text' ∧ rest = rest' := by
  have hnot : '[' ∉ text.toList := not_mem_of_isFree h rfl
  have hnot' : '[' ∉ text'.toList := not_mem_of_isFree h' rfl
  have hsplit : text.toList = text'.toList ∧ rest = rest' := by
    refine eq_of_followed ?_ ?_ heq
    · intro more hmore
      exact hnot (by simp [hmore])
    · intro more hmore
      exact hnot' (by simp [hmore])
  exact ⟨String.toList_injective hsplit.1, hsplit.2⟩

end Brackets

open Brackets

/-! ## The shape of a full name -/

namespace Descriptor

/-- The full names of arguments, each in brackets, as they stand in a full name. -/
def joinedNames (args : List Descriptor) : List Char :=
  (",".intercalate (bracketedNames args)).toList

theorem joinedNames_cons (d : Descriptor) (rest : List Descriptor) :
    joinedNames (d :: rest) =
      '[' :: (d.fullName.toList ++ ']' :: if rest.isEmpty then [] else ',' :: joinedNames rest) := by
  cases rest with
  | nil => simp [joinedNames, bracketedNames]
  | cons next rest => simp [joinedNames, bracketedNames]

theorem fullName_arrayOf (element : Descriptor) :
    (arrayOf element).fullName.toList = element.fullName.toList ++ ['[', ']'] := by
  rw [fullName, String.toList_append]
  rfl

/-- The full name of a closed type is its definition name, followed by those of its arguments. -/
theorem fullName_close (d : Descriptor) {args : List Descriptor} (h : args ≠ []) :
    (d.close args).fullName.toList =
      (qualify d.namespaceName? d.name).toList ++ '[' :: (joinedNames args ++ [']']) := by
  have hopen : (false || args.isEmpty) ≠ true := by simpa using h
  rw [close, fullName, if_neg hopen]
  simp [joinedNames]

/-- The brackets around the last argument end the names of the arguments. -/
theorem joinedNames_eq_concat {args : List Descriptor} (h : args ≠ []) :
    ∃ front, joinedNames args = front ++ [']'] := by
  induction args with
  | nil => exact absurd rfl h
  | cons d rest ih =>
    rw [joinedNames_cons]
    cases rest with
    | nil => exact ⟨'[' :: d.fullName.toList, rfl⟩
    | cons next rest =>
      obtain ⟨front, hfront⟩ := ih (List.cons_ne_nil next rest)
      refine ⟨'[' :: (d.fullName.toList ++ ']' :: ',' :: front), ?_⟩
      rw [hfront]
      simp

theorem balanced_joinedNames {args : List Descriptor}
    (h : ∀ d ∈ args, Balanced d.fullName.toList) : Balanced (joinedNames args) := by
  induction args with
  | nil => exact balanced_nil
  | cons d rest ih =>
    have hd : Balanced ('[' :: (d.fullName.toList ++ [']'])) := (h d List.mem_cons_self).enclose
    have hrest : Balanced (if rest.isEmpty then [] else ',' :: joinedNames rest) := by
      have hnames := ih fun a ha => h a (List.mem_cons_of_mem d ha)
      have hcomma : Balanced [','] := balanced_of_all rfl
      split
      · exact balanced_nil
      · exact hcomma.append hnames
    have happend := hd.append hrest
    rw [joinedNames_cons]
    simpa using happend

/-- The names of arguments can be told apart again. -/
theorem fullNames_eq_of_joinedNames {as bs : List Descriptor}
    (has : ∀ a ∈ as, Balanced a.fullName.toList) (hbs : ∀ b ∈ bs, Balanced b.fullName.toList)
    (h : joinedNames as = joinedNames bs) : as.map fullName = bs.map fullName := by
  induction as generalizing bs with
  | nil =>
    cases bs with
    | nil => rfl
    | cons b bs =>
      rw [joinedNames_cons] at h
      cases h
  | cons a as ih =>
    cases bs with
    | nil =>
      rw [joinedNames_cons] at h
      cases h
    | cons b bs =>
      rw [joinedNames_cons, joinedNames_cons] at h
      have hfirst := (has a List.mem_cons_self).eq_of_closed (hbs b List.mem_cons_self)
        (List.cons.inj h).2
      have hrest : joinedNames as = joinedNames bs := by
        have hcomma := hfirst.2
        cases as with
        | nil =>
          cases bs with
          | nil => rfl
          | cons b' bs => cases hcomma
        | cons a' as =>
          cases bs with
          | nil => cases hcomma
          | cons b' bs => exact (List.cons.inj hcomma).2
      rw [List.map_cons, List.map_cons, String.toList_injective hfirst.1,
        ih (fun x hx => has x (List.mem_cons_of_mem a hx))
          (fun x hx => hbs x (List.mem_cons_of_mem b hx)) hrest]

end Descriptor

/-! ## Types that references denote -/

/-- Whether neither the namespace nor the name of a type holds a square bracket. -/
def Descriptor.hasFreeNames (d : Descriptor) : Bool :=
  d.namespaceName?.all isFree && isFree d.name

theorem Descriptor.isFree_qualify {d : Descriptor} (h : d.hasFreeNames = true) :
    isFree (qualify d.namespaceName? d.name) = true := by
  rw [hasFreeNames, Bool.and_eq_true] at h
  obtain ⟨hns, hname⟩ := h
  cases hd : d.namespaceName? with
  | none => exact hname
  | some ns =>
    rw [hd] at hns
    have hdot : isFree "." = true := rfl
    simp only [isFree, Option.all_some] at hns hname hdot
    simp only [isFree, qualify, String.toList_append, List.all_append, hns, hname, hdot,
      Bool.and_self]

namespace Catalog

open Descriptor

/-- Whether no namespace and no name in a catalog holds a square bracket. -/
def hasFreeNames (c : Catalog) : Bool := c.types.entries.all fun entry => entry.2.hasFreeNames

section Denoted

variable {c : Catalog} {key : String} {d : Descriptor}

theorem qualify_of_get? (hc : c.Keyed) (known : c.get? key = some d) :
    qualify d.namespaceName? d.name = key := by
  obtain ⟨definition, _, rfl, hkey⟩ := hc _ _ known
  exact hkey

/-- An entry is known by its definition name, as its arguments are its own parameters. -/
theorem fullName_of_get? (hc : c.Keyed) (known : c.get? key = some d) : d.fullName = key := by
  obtain ⟨definition, _, rfl, hkey⟩ := hc _ _ known
  rw [← hkey]
  show (if (!definition.params.isEmpty || (definition.params.map parameter).isEmpty) = true
    then qualify _ _ else _) = qualify _ _
  rw [if_pos (by simp)]

theorem isFree_of_get? (hc : c.Keyed) (hfree : c.hasFreeNames = true)
    (known : c.get? key = some d) : isFree key = true := by
  rw [← qualify_of_get? hc known]
  exact isFree_qualify (List.all_eq_true.1 hfree _ (Table.mem_entries_of_get? known))

/-- The brackets of a full name match. -/
theorem Denotes.balanced (hc : c.Keyed) (hfree : c.hasFreeNames = true) (h : c.Denotes d) :
    Balanced d.fullName.toList := by
  induction h with
  | entry known =>
    rw [fullName_of_get? hc known]
    exact balanced_of_all (isFree_of_get? hc hfree known)
  | @close key d args known hne _ ih =>
    have hkey : Balanced key.toList := balanced_of_all (isFree_of_get? hc hfree known)
    rw [fullName_close d hne, qualify_of_get? hc known]
    exact hkey.append (balanced_joinedNames ih).enclose
  | arrayOf _ ih =>
    rw [fullName_arrayOf]
    exact ih.append balanced_nil.enclose

/-! ### Reading the end of a name -/

/-- The name of a closed type ends with the bracket of its last argument and its own. -/
theorem fullName_close_eq_concat (d : Descriptor) {args : List Descriptor} (h : args ≠ []) :
    ∃ front, (d.close args).fullName.toList = front ++ [']', ']'] := by
  obtain ⟨front, hfront⟩ := joinedNames_eq_concat h
  refine ⟨(qualify d.namespaceName? d.name).toList ++ '[' :: front, ?_⟩
  rw [fullName_close d h, hfront]
  simp

/-- A name without brackets is the name of an entry. -/
theorem Denotes.known_of_isFree (hc : c.Keyed) (h : c.Denotes d) (hfree : isFree d.fullName = true) :
    c.get? d.fullName = some d := by
  have hnot : '[' ∉ d.fullName.toList := not_mem_of_isFree hfree rfl
  cases h with
  | entry known => rw [fullName_of_get? hc known, known]
  | @close _ d args _ hne _ =>
    rw [fullName_close d hne] at hnot
    exact absurd (by simp) hnot
  | arrayOf _ =>
    rw [fullName_arrayOf] at hnot
    exact absurd (by simp) hnot

theorem Denotes.arrayOf_of_fullName (hc : c.Keyed) (hfree : c.hasFreeNames = true)
    (h : c.Denotes d) {front : List Char} (hname : d.fullName.toList = front ++ ['[', ']']) :
    ∃ element, d = .arrayOf element ∧ c.Denotes element ∧ element.fullName.toList = front := by
  cases h with
  | entry known =>
    have hnot : '[' ∉ d.fullName.toList := by
      rw [fullName_of_get? hc known]
      exact not_mem_of_isFree (isFree_of_get? hc hfree known) rfl
    rw [hname] at hnot
    exact absurd (by simp) hnot
  | @close _ d args _ hne _ =>
    obtain ⟨front', hfront⟩ := fullName_close_eq_concat d hne
    rw [hfront] at hname
    cases (List.append_inj' hname rfl).2
  | arrayOf denoted =>
    rw [fullName_arrayOf] at hname
    exact ⟨_, rfl, denoted, List.append_cancel_right hname⟩

theorem Denotes.close_of_fullName (hc : c.Keyed) (hfree : c.hasFreeNames = true)
    (h : c.Denotes d) {front : List Char} (hname : d.fullName.toList = front ++ [']', ']']) :
    ∃ key definition args, c.get? key = some definition ∧ args ≠ [] ∧
      (∀ a ∈ args, c.Denotes a) ∧ d = definition.close args := by
  cases h with
  | entry known =>
    have hnot : ']' ∉ d.fullName.toList := by
      rw [fullName_of_get? hc known]
      exact not_mem_of_isFree (isFree_of_get? hc hfree known) rfl
    rw [hname] at hnot
    exact absurd (by simp) hnot
  | close known hne denoted => exact ⟨_, _, _, known, hne, denoted, rfl⟩
  | arrayOf _ =>
    rw [fullName_arrayOf] at hname
    cases (List.append_inj' hname rfl).2

/-! ### One name, one type -/

/-- Two closed types of one name are closed over one definition, and the names of their arguments
agree. -/
theorem close_of_fullName_eq (hc : c.Keyed) (hfree : c.hasFreeNames = true) {key' : String}
    {d' : Descriptor} {args args' : List Descriptor} (known : c.get? key = some d)
    (known' : c.get? key' = some d') (hne : args ≠ []) (hne' : args' ≠ [])
    (hargs : ∀ a ∈ args, c.Denotes a) (hargs' : ∀ a ∈ args', c.Denotes a)
    (h : (d.close args).fullName = (d'.close args').fullName) :
    d = d' ∧ args.map fullName = args'.map fullName := by
  have hchars := congrArg String.toList h
  rw [fullName_close d hne, fullName_close d' hne', qualify_of_get? hc known,
    qualify_of_get? hc known'] at hchars
  -- The first bracket ends the definition name.
  obtain ⟨rfl, hinner⟩ :=
    eq_of_isFree (isFree_of_get? hc hfree known) (isFree_of_get? hc hfree known') hchars
  rw [known] at known'
  refine ⟨Option.some.inj known', ?_⟩
  exact fullNames_eq_of_joinedNames (fun a ha => (hargs a ha).balanced hc hfree)
    (fun a ha => (hargs' a ha).balanced hc hfree) (List.append_cancel_right hinner)

theorem eq_of_map_fullName_eq {as bs : List Descriptor}
    (ih : ∀ a ∈ as, ∀ b ∈ bs, a.fullName = b.fullName → a = b)
    (h : as.map fullName = bs.map fullName) : as = bs := by
  refine List.ext_getElem (by simpa using congrArg List.length h) fun i ha hb => ?_
  refine ih _ (List.getElem_mem ha) _ (List.getElem_mem hb) ?_
  have hi := List.getElem_of_eq h (i := i) (by simpa using ha)
  simpa using hi

/-- A full name denotes one type. The induction is on one of the two types: the end of the name says
that the other is made in the same way, and their parts have the same names again. -/
theorem Denotes.eq_of_fullName (hc : c.Keyed) (hfree : c.hasFreeNames = true) {a b : Descriptor}
    (ha : c.Denotes a) (hb : c.Denotes b) (h : a.fullName = b.fullName) : a = b := by
  induction ha generalizing b with
  | entry known =>
    rw [fullName_of_get? hc known] at h
    have hkey := isFree_of_get? hc hfree known
    rw [h] at known hkey
    rw [hb.known_of_isFree hc hkey] at known
    exact (Option.some.inj known).symm
  | @close _ d args known hne denoted ih =>
    obtain ⟨front, hfront⟩ := fullName_close_eq_concat d hne
    rw [h] at hfront
    obtain ⟨_, d', args', known', hne', hargs', rfl⟩ := hb.close_of_fullName hc hfree hfront
    obtain ⟨rfl, hnames⟩ := close_of_fullName_eq hc hfree known known' hne hne' denoted hargs' h
    rw [eq_of_map_fullName_eq (fun x hx y hy hxy => ih x hx (hargs' y hy) hxy) hnames]
  | @arrayOf element _ ih =>
    have hname := congrArg String.toList h
    rw [fullName_arrayOf] at hname
    obtain ⟨element', rfl, denoted', helement⟩ := hb.arrayOf_of_fullName hc hfree hname.symm
    rw [ih denoted' (String.toList_injective helement.symm)]

end Denoted

/-- **The full name is the identity of a type.** Take a catalog in which no namespace and no name
holds a square bracket, and two references that it resolves. If the types have one full name they are
the same in every part. So they are shown alike, are the same without their wrappers, and are
projected alike in every state. -/
theorem resolve_fullName_injective {c : Catalog} (hc : c.Built) (hfree : c.hasFreeNames = true)
    {reference reference' : Reference} {a b : Descriptor} (ha : c.resolve reference = .ok a)
    (hb : c.resolve reference' = .ok b) (h : a.fullName = b.fullName) :
    a = b ∧ a.prettyName = b.prettyName ∧ a.unwrap = b.unwrap ∧
      ∀ (p : Projector) (r : Registry), p.project r a = p.project r b := by
  have heq : a = b := (c.denotes_resolve reference ha).eq_of_fullName hc.keyed hfree
    (c.denotes_resolve reference' hb) h
  subst heq
  exact ⟨rfl, rfl, rfl, fun _ _ => rfl⟩

/-- Items, boxes and pairs. -/
def pairDefinitions : List Definition :=
  [⟨some "Shop", "Item", .classType, [], []⟩, ⟨some "Shop", "Box", .classType, ["T"], []⟩,
    ⟨some "Shop", "Pair", .structType, ["A", "B"], []⟩]

/-- A catalog of these definitions alone. -/
def pairCatalog : Catalog :=
  pairDefinitions.foldl (fun c definition => c.enter definition.toDescriptor) .empty

/-- A pair of the given type and a box of items. -/
def pairWithBox (first : Reference) : Reference :=
  .generic "Shop.Pair`2" [first, .generic "Shop.Box`1" [.named "Shop.Item"]]

/-- Arrays of arrays of items, written in two ways, in a pair with a box. -/
theorem pairs_same_by_fullName :
    pairCatalog.Built ∧ pairCatalog.hasFreeNames = true ∧
      ∃ a b, pairCatalog.resolve (pairWithBox (.named "Shop.Item[][]")) = .ok a ∧
        pairCatalog.resolve (pairWithBox (.array (.named "Shop.Item[]"))) = .ok b ∧
        a.fullName = "Shop.Pair`2[[Shop.Item[][]],[Shop.Box`1[[Shop.Item]]]]" ∧
        a.fullName = b.fullName ∧ a = b := by
  have hdefine : Catalog.empty.defineAll pairDefinitions = .ok pairCatalog := rfl
  have hbuilt : pairCatalog.Built := Built.empty.defineAll hdefine
  have hfree : pairCatalog.hasFreeNames = true := by decide +kernel
  obtain ⟨a, ha, hname⟩ :
      ∃ a, pairCatalog.resolve (pairWithBox (.named "Shop.Item[][]")) = .ok a ∧
        a.fullName = "Shop.Pair`2[[Shop.Item[][]],[Shop.Box`1[[Shop.Item]]]]" :=
    ⟨_, rfl, by decide +kernel⟩
  obtain ⟨b, hb, hname'⟩ :
      ∃ b, pairCatalog.resolve (pairWithBox (.array (.named "Shop.Item[]"))) = .ok b ∧
        b.fullName = "Shop.Pair`2[[Shop.Item[][]],[Shop.Box`1[[Shop.Item]]]]" :=
    ⟨_, rfl, by decide +kernel⟩
  have hsame := resolve_fullName_injective hbuilt hfree ha hb (hname.trans hname'.symm)
  exact ⟨hbuilt, hfree, a, b, ha, hb, hname, hname.trans hname'.symm, hsame.1⟩

end Catalog

end TypeProjection
