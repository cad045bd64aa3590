import TypeProjection.Proofs.Registration

/-!
# How types are made

A type is made from settings, as the array of another type, or by closing another type over arguments,
and each of these may be nested in the others. What is said of a type can be written down on a card at
once when it is made. Its definition name is then put together in two ways: settings join it from a
namespace and a name, and an array adds brackets to that of its element. A type that is closed gets it
anew, from the namespace and the name on the old card. This file shows that all of this comes to the
same, however a type is made (`Construction.correct_card`). So closing a type over arguments keeps its
definition name, that of an array included, and closing it again forgets the first arguments
(`closings_share_definition`).
-/

namespace TypeProjection

namespace Descriptor

/-- The definition name is the namespace and the name, of an array too. -/
theorem qualify_name : ∀ d : Descriptor, qualify d.namespaceName? d.name = d.definitionName
  | .named _ _ _ _ _ _ => rfl
  | .arrayOf element => by
    have ih := qualify_name element
    rw [definitionName, ← ih, namespaceName?, name]
    cases element.namespaceName? with
    | none => rfl
    | some ns => simp [qualify, String.append_assoc]

/-- The first type differs from the second in nothing but its arguments. -/
structure Instantiates (closed d : Descriptor) : Prop where
  definitionName : closed.definitionName = d.definitionName
  namespaceName? : closed.namespaceName? = d.namespaceName?
  name : closed.name = d.name
  kind : closed.kind = d.kind
  contracts : closed.contracts = d.contracts

theorem close_instantiates (d : Descriptor) (args : List Descriptor) :
    Instantiates (d.close args) d where
  definitionName := d.qualify_name
  namespaceName? := rfl
  name := rfl
  kind := rfl
  contracts := rfl

end Descriptor

/-! ## Cards -/

/-- A type with what was written down when it was made. -/
structure Card where
  type : Descriptor
  namespaceName? : Option String
  name : String
  definitionName : String
  fullName : String

/-- The settings of a type that is not made yet. -/
structure Draft where
  namespaceName? : Option String
  name : String
  kind : Kind
  args : List Card
  isOpen : Bool
  contracts : Contracts

namespace Draft

/-- A type is a class without a namespace, unless it is set otherwise. -/
def start (name : String) : Draft := ⟨none, name, .classType, [], false, .none⟩

/-- Makes the type. -/
def card (draft : Draft) : Card where
  type := .named draft.namespaceName? draft.name draft.kind (draft.args.map Card.type) draft.isOpen
    draft.contracts
  namespaceName? := draft.namespaceName?
  name := draft.name
  definitionName := Descriptor.qualify draft.namespaceName? draft.name
  fullName :=
    if draft.isOpen || draft.args.isEmpty then Descriptor.qualify draft.namespaceName? draft.name
    else
      Descriptor.qualify draft.namespaceName? draft.name ++ "[" ++
        ",".intercalate (draft.args.map fun arg => "[" ++ arg.fullName ++ "]") ++ "]"

def parameter (name : String) : Card := card { start name with kind := .parameter }

end Draft

namespace Card

/-- An array adds brackets to each name on the card of its element. -/
def arrayOf (element : Card) : Card where
  type := .arrayOf element.type
  namespaceName? := element.namespaceName?
  name := element.name ++ "[]"
  definitionName := element.definitionName ++ "[]"
  fullName := element.fullName ++ "[]"

/-- Makes the type anew, with the namespace and the name on its card and with its kind and its
contracts. -/
def close (c : Card) (args : List Card) : Card :=
  Draft.card ⟨c.namespaceName?, c.name, c.type.kind, args, false, c.type.contracts⟩

end Card

/-! ## Constructions -/

mutual

/-- How a type is made. -/
inductive Construction where
  | build (settings : Settings)
  | arrayOf (element : Construction)
  | close (type : Construction) (args : List Construction)

/-- Settings that are made one after another. Later ones replace earlier ones. -/
inductive Settings where
  | start (name : String)
  | inNamespace (settings : Settings) (namespaceName : String)
  /-- Any kind, that of arrays of any element included. -/
  | ofKind (settings : Settings) (kind : Kind)
  | implementing (settings : Settings) (contracts : Contracts)
  | closedOver (settings : Settings) (args : List Construction)
  /-- An open definition, if there are any parameters. -/
  | openOver (settings : Settings) (params : List String)

end

mutual

/-- The card of the type that is made. -/
def Construction.card : Construction → Card
  | .build settings => settings.draft.card
  | .arrayOf element => element.card.arrayOf
  | .close type args => type.card.close (cardsOf args)

def Settings.draft : Settings → Draft
  | .start name => .start name
  | .inNamespace settings ns => { settings.draft with namespaceName? := some ns }
  | .ofKind settings kind => { settings.draft with kind }
  | .implementing settings contracts => { settings.draft with contracts }
  | .closedOver settings args => { settings.draft with args := cardsOf args, isOpen := false }
  | .openOver settings params =>
    { settings.draft with args := params.map Draft.parameter, isOpen := !params.isEmpty }

def cardsOf : List Construction → List Card
  | [] => []
  | c :: rest => c.card :: cardsOf rest

end

theorem cardsOf_eq (cs : List Construction) : cardsOf cs = cs.map Construction.card := by
  induction cs with
  | nil => rfl
  | cons c rest ih => rw [cardsOf, ih, List.map_cons]

/-- The type that is made. -/
def Construction.type (c : Construction) : Descriptor := c.card.type

/-! ## What is written on a card -/

/-- A card says of its type what the type itself says. -/
structure Card.Correct (c : Card) : Prop where
  namespaceName? : c.namespaceName? = c.type.namespaceName?
  name : c.name = c.type.name
  definitionName : c.definitionName = c.type.definitionName
  fullName : c.fullName = c.type.fullName

theorem bracketedNames_types {cards : List Card} (h : ∀ c ∈ cards, c.Correct) :
    Descriptor.bracketedNames (cards.map Card.type) =
      cards.map fun c => "[" ++ c.fullName ++ "]" := by
  induction cards with
  | nil => rfl
  | cons c rest ih =>
    rw [List.map_cons, List.map_cons, Descriptor.bracketedNames, (h c List.mem_cons_self).fullName,
      ih fun c hc => h c (List.mem_cons_of_mem _ hc)]

theorem Draft.correct_card {draft : Draft} (h : ∀ c ∈ draft.args, c.Correct) :
    draft.card.Correct where
  namespaceName? := rfl
  name := rfl
  definitionName := rfl
  fullName := by
    show _ = (Descriptor.named _ _ _ (draft.args.map Card.type) _ _).fullName
    rw [Descriptor.fullName, bracketedNames_types h, List.isEmpty_map]
    rfl

theorem Draft.correct_parameter (name : String) : (parameter name).Correct :=
  correct_card fun _ hc => nomatch hc

theorem Card.Correct.arrayOf {c : Card} (h : c.Correct) : c.arrayOf.Correct where
  namespaceName? := h.namespaceName?
  name := congrArg (· ++ "[]") h.name
  definitionName := congrArg (· ++ "[]") h.definitionName
  fullName := by
    show c.fullName ++ "[]" = (Descriptor.arrayOf c.type).fullName
    rw [Descriptor.fullName, h.fullName]

/-- What is written on the card of a closed type fits, whether or not it fitted on the old card. -/
theorem Card.correct_close (c : Card) {args : List Card} (h : ∀ arg ∈ args, arg.Correct) :
    (c.close args).Correct :=
  Draft.correct_card h

/-- From a correct card, the type that is closed is the one that the card is of. -/
theorem Card.Correct.type_close {c : Card} (h : c.Correct) (args : List Card) :
    (c.close args).type = c.type.close (args.map Card.type) := by
  rw [Card.close, Draft.card, Descriptor.close, h.namespaceName?, h.name]

mutual

/-- However a type is made, its card is correct. -/
theorem Construction.correct_card : ∀ c : Construction, c.card.Correct
  | .build settings => Draft.correct_card settings.correct_args
  | .arrayOf element => element.correct_card.arrayOf
  | .close type args => type.card.correct_close (correct_cardsOf args)

theorem Settings.correct_args : ∀ settings : Settings, ∀ c ∈ settings.draft.args, c.Correct
  | .start _ => fun _ hc => nomatch hc
  | .inNamespace settings _ => settings.correct_args
  | .ofKind settings _ => settings.correct_args
  | .implementing settings _ => settings.correct_args
  | .closedOver _ args => correct_cardsOf args
  | .openOver _ params => fun c hc => by
    obtain ⟨name, -, rfl⟩ := List.mem_map.1 hc
    exact Draft.correct_parameter name

theorem correct_cardsOf : ∀ cs : List Construction, ∀ c ∈ cardsOf cs, c.Correct
  | [] => fun _ hc => nomatch hc
  | c :: rest => fun card hcard => by
    rcases List.mem_cons.1 hcard with rfl | hcard
    · exact c.correct_card
    · exact correct_cardsOf rest card hcard

end

/-! ## Closing a type -/

namespace Construction

/-- Setting the arguments closes the type that the other settings make. -/
theorem type_closedOver (settings : Settings) (args : List Construction) :
    (build (.closedOver settings args)).type = (build settings).type.close (args.map type) := by
  show Descriptor.named _ _ _ ((cardsOf args).map Card.type) _ _ = _
  rw [cardsOf_eq, List.map_map]
  rfl

/-- Setting parameters makes that type a generic definition. -/
theorem type_openOver (settings : Settings) (params : List String) :
    (build (.openOver settings params)).type = (build settings).type.withParameters params := by
  show Descriptor.named _ _ _ ((params.map Draft.parameter).map Card.type) _ _ = _
  rw [List.map_map]
  rfl

theorem type_close (c : Construction) (args : List Construction) :
    (close c args).type = c.type.close (args.map type) := by
  rw [type, card, c.correct_card.type_close, cardsOf_eq, List.map_map]
  rfl

/-- **All instantiations of a type share its definition.** However a type is made, its definition name
is the namespace and the name on its card, and the card is correct. The type closed over arguments has
the same definition name, namespace, name, kind and contracts. So a registry has one entry for a type
and all its instantiations. Closing an instantiation again is closing the type itself. -/
theorem closings_share_definition (c : Construction) :
    c.card.definitionName = Descriptor.qualify c.card.namespaceName? c.card.name ∧
    c.card.Correct ∧
    (∀ args, (close c args).type = c.type.close (args.map type) ∧
      (close c args).card.definitionName = c.card.definitionName ∧
      Descriptor.Instantiates (close c args).type c.type) ∧
    (∀ r : Registry, (∀ args, r.find? (close c args).type = r.find? c.type) ∧
      ∀ instances : List (List Construction),
        r.registerAll (c.type :: instances.map fun args => (close c args).type) =
          r.register c.type) ∧
    ∀ xs ys, (close (close c xs) ys).card = (close c ys).card := by
  have hname : c.card.definitionName = Descriptor.qualify c.card.namespaceName? c.card.name := by
    rw [c.correct_card.definitionName, c.correct_card.namespaceName?, c.correct_card.name,
      Descriptor.qualify_name]
  have hinstance : ∀ args, Descriptor.Instantiates (close c args).type c.type := by
    intro args
    rw [type_close]
    exact c.type.close_instantiates _
  refine ⟨hname, c.correct_card, ?closed, fun r => ⟨?entry, ?registered⟩, fun _ _ => rfl⟩
  case closed =>
    intro args
    exact ⟨type_close c args, hname.symm, hinstance args⟩
  case entry =>
    intro args
    rw [Registry.find?, Registry.find?, (hinstance args).definitionName]
  case registered =>
    intro instances
    show (r.register c.type).registerAll _ = r.register c.type
    apply Registry.registerAll_of_contains
    intro d hd
    obtain ⟨args, -, rfl⟩ := List.mem_map.1 hd
    rw [Registry.contains_congr (hinstance args).definitionName]
    exact r.contains_register_self c.type

/-- An array is closed like any other type. Its element keeps its own arguments, which do not show. -/
example :
    let text : Construction := .build (.inNamespace (.start "String") "System")
    let box : Construction := .build (.openOver (.inNamespace (.start "Box`1") "Shop") ["T"])
    let boxes : Construction := .arrayOf (.close box [text])
    boxes.card.fullName = "Shop.Box`1[[System.String]][]" ∧
      (close boxes [text]).card.definitionName = "Shop.Box`1[]" ∧
      (close boxes [text]).card.fullName = "Shop.Box`1[][[System.String]]" := by
  decide

end Construction

end TypeProjection
