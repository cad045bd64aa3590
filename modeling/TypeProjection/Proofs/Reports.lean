import TypeProjection.CommandLine
import TypeProjection.Proofs.Names
import TypeProjection.Proofs.Resolution

/-!
# Reports on types by name

A report has one line for each type. If that is asked for, a section follows that lists the types that
were registered on the way. All types of a report share one registry, yet nothing but the section
remembers what came before: the report on two lists of names is the report on the first and then that
on the second, and its section is that of the first with what the second has besides
(`report_append`).
-/

namespace TypeProjection

/-! ## What is registered and how it is named -/

namespace Registry

/-- A declared type is named like every other that shares its definition. -/
theorem declaredName_eq_of_sameDefinition (r : Registry) (config : Config) {c : Catalog}
    {a b : Descriptor} (ha : c.Declares a) (hb : c.Declares b)
    (h : a.definitionName = b.definitionName) :
    r.declaredName config a = r.declaredName config b := by
  obtain ⟨hns, hname⟩ := ha.congr hb h
  rw [declaredName, declaredName, Descriptor.simpleName, Descriptor.simpleName, hns, hname]

/-- The entry of a declared type is read back under its declared name. -/
theorem qualifiedName_of_mem {r : Registry} {c : Catalog} (hc : c.Keyed) (hr : r.DeclaredBy c)
    (config : Config) {e : Descriptor} (he : e ∈ r.entries) :
    r.qualifiedName config e = r.declaredName config e := by
  have hcontains : r.contains e = true := contains_iff.2 ⟨e, he, rfl⟩
  have hdeclares := hr.declares e he
  rw [qualifiedName, moduleOf?_eq_memberFor? hr hdeclares hcontains,
    qualifiedName_memberFor? hc r config hdeclares]

end Registry

namespace Catalog

variable {c : Catalog} {names : List String}

theorem resolveNames_eq_ok_iff {ds : List Descriptor} :
    c.resolveNames names = .ok ds ↔
      List.Forall₂ (fun name d => c.resolveName name = .ok d) names ds := by
  rw [resolveNames, resolveAll_eq_ok_iff, List.forall₂_map_left_iff]
  simp only [resolve]

theorem resolveNames_append {names' : List String} {ds ds' : List Descriptor}
    (h : c.resolveNames names = .ok ds) (h' : c.resolveNames names' = .ok ds') :
    c.resolveNames (names ++ names') = .ok (ds ++ ds') := by
  rw [resolveNames_eq_ok_iff] at h h' ⊢
  exact List.rel_append h h'

/-- Names are resolved one by one, unless one of them does not resolve. Then the error is that of the
first such name. -/
theorem resolveNames_eq_error_iff {e : CatalogError} :
    c.resolveNames names = .error e ↔ ∃ before name after, names = before ++ name :: after ∧
      (∀ b ∈ before, ∃ d, c.resolveName b = .ok d) ∧ c.resolveName name = .error e := by
  rw [resolveNames, resolveAll_eq_error_iff]
  constructor
  · rintro ⟨before, r, after, hnames, hbefore, hr⟩
    obtain ⟨front, tail, rfl, rfl, htail⟩ := List.map_eq_append_iff.1 hnames
    obtain ⟨name, behind, rfl, rfl, rfl⟩ := List.map_eq_cons_iff.1 htail
    refine ⟨front, name, behind, rfl, ?_, by simpa only [resolve] using hr⟩
    intro b hb
    simpa only [resolve] using hbefore (.named b) (List.mem_map_of_mem hb)
  · rintro ⟨before, name, after, rfl, hbefore, hname⟩
    refine ⟨before.map .named, .named name, after.map .named, by simp, ?_, ?_⟩
    · intro r hr
      obtain ⟨b, hb, rfl⟩ := List.mem_map.1 hr
      simpa only [resolve] using hbefore b hb
    · simpa only [resolve] using hname

end Catalog

/-- The options of a report, for given names and with the section or without it. -/
def ReportOptions.on (o : ReportOptions) (names : List String) (showRegistered : Bool) :
    ReportOptions :=
  { o with types := names, showRegistered }

namespace Report

/-! ## What a report is made of -/

/-- An entry of the section: the name of a registered type and the name of its definition. -/
structure Listed where
  name : String
  definitionName : String
deriving DecidableEq

def Listed.line (l : Listed) : String := "  " ++ l.name ++ " (" ++ l.definitionName ++ ")"

/-- The section that lists registered types, with their number in front. -/
def sectionText (listed : List Listed) : String :=
  unlines (["", "Registered types (" ++ toString listed.length ++ "):"] ++ listed.map Listed.line)

/-- The entries of a list whose definitions another list does not have. -/
def missingFrom (others listed : List Listed) : List Listed :=
  listed.filter fun l => !(others.map Listed.definitionName).contains l.definitionName

namespace Sources

/-- The name by which a declared type is written. -/
def nameOf (s : Sources) (d : Descriptor) : String :=
  (Registry.new s.modules).declaredName s.projector.config d

def entry (s : Sources) (d : Descriptor) : Listed := ⟨s.nameOf d, d.definitionName⟩

/-- The line of each type, in which every declared type has its name. -/
def linesText (s : Sources) (ds : List Descriptor) : String :=
  unlines (ds.map fun d => rootLine d (.ofExpr (s.projector.exprWith s.nameOf d)))

/-- The declared types that the lines of types are written with, in the order of these lines. -/
def declared (s : Sources) (ds : List Descriptor) : List Descriptor :=
  ds.flatMap fun d => (s.projector.visited d).filter s.projector.isDeclared

/-- The registry behind the lines of types. -/
def registered (s : Sources) (ds : List Descriptor) : Registry :=
  (Registry.new s.modules).registerAll (s.declared ds)

def listing (s : Sources) (ds : List Descriptor) : List Listed :=
  (s.registered ds).entries.map s.entry

/-- What the report on some names is about: the types with these names, and the entries that are
listed for them. -/
structure Account (s : Sources) (names : List String) (ds : List Descriptor)
    (listed : List Listed) : Prop where
  resolved : List.Forall₂ (fun name d => s.catalog.resolveName name = .ok d) names ds
  /-- No definition is listed twice. -/
  listed_once : (listed.map Listed.definitionName).Nodup
  /-- What is listed stands in a line, by the same name. -/
  in_lines : ∀ l ∈ listed, ∃ d ∈ ds, ∃ x ∈ s.projector.visited d,
    s.projector.isDeclared x = true ∧ l = s.entry x
  /-- What stands in a line is listed, by the same name. -/
  complete : ∀ d ∈ ds, ∀ x ∈ s.projector.visited d,
    s.projector.isDeclared x = true → s.entry x ∈ listed

end Sources

/-! ## Lines -/

theorem unlines_append (a b : List String) : unlines (a ++ b) = unlines a ++ unlines b := by
  rw [unlines, List.map_append, String.join_append]
  rfl

section Projections

variable {p : Projector} {c : Catalog} {r : Registry} {ds : List Descriptor}

theorem registryAfter_eq :
    registryAfter p r ds =
      r.registerAll (ds.flatMap fun d => (p.visited d).filter p.isDeclared) := by
  induction ds generalizing r with
  | nil => rfl
  | cons d rest ih =>
    rw [registryAfter, List.foldl_cons, ← registryAfter, ih, p.project_registry, List.flatMap_cons,
      Registry.registerAll_append]

/-- A line does not depend on the lines before it. -/
theorem rootLines_eq (hc : c.Keyed) (hr : r.DeclaredBy c) (hds : ∀ d ∈ ds, c.Provides d) :
    rootLines p r ds =
      ds.map fun d => rootLine d (.ofExpr (p.exprWith (r.declaredName p.config) d)) := by
  induction ds generalizing r with
  | nil => rfl
  | cons d rest ih =>
    have hd := hds d List.mem_cons_self
    have hmodules : (p.project r d).registry.modules = r.modules := by
      rw [p.project_registry, Registry.modules_registerAll]
    rw [List.map_cons, rootLines, Projector.projection_eq_ofExpr hc hr hd,
      ih (Projector.project_declaredBy hc hr hd) fun a ha => hds a (List.mem_cons_of_mem d ha),
      Registry.declaredName_congr hmodules]

end Projections

/-! ## The section -/

namespace Sources

variable {s : Sources} {names : List String} {ds : List Descriptor}

theorem registryAfter_new : registryAfter s.projector (.new s.modules) ds = s.registered ds :=
  registryAfter_eq

theorem nameOf_eq : s.nameOf = (s.registered ds).declaredName s.projector.config := by
  funext d
  rw [registered, Registry.declaredName_congr (Registry.modules_registerAll _ _)]
  rfl

theorem declares_of_mem_declared (hc : s.catalog.Keyed) (hds : ∀ d ∈ ds, s.catalog.Provides d) :
    ∀ x ∈ s.declared ds, s.catalog.Declares x := by
  intro x hx
  obtain ⟨d, hd, hx⟩ := List.mem_flatMap.1 hx
  obtain ⟨hvisited, hdeclared⟩ := List.mem_filter.1 hx
  exact Projector.declares_of_visited hc s.projector (hds d hd) hvisited hdeclared

theorem declaredBy_registered (hc : s.catalog.Keyed) (hds : ∀ d ∈ ds, s.catalog.Provides d) :
    (s.registered ds).DeclaredBy s.catalog :=
  (Registry.declaredBy_new _ _).registerAll (declares_of_mem_declared hc hds)

theorem registeredLines_eq (hc : s.catalog.Keyed) (hds : ∀ d ∈ ds, s.catalog.Provides d) :
    unlines (registeredLines s.projector.config (s.registered ds)) =
      sectionText (s.listing ds) := by
  have hentries :
      (s.registered ds).entries.map (registeredLine s.projector.config (s.registered ds)) =
        (s.listing ds).map Listed.line := by
    rw [listing, List.map_map]
    refine List.map_congr_left fun e he => ?_
    rw [registeredLine, Registry.qualifiedName_of_mem hc (declaredBy_registered hc hds) _ he,
      ← nameOf_eq]
    rfl
  rw [registeredLines, hentries, sectionText, listing, List.length_map]
  rfl

theorem render_eq (hc : s.catalog.Keyed) (hds : ∀ d ∈ ds, s.catalog.Provides d) (shown : Bool) :
    s.render shown ds =
      s.linesText ds ++ if shown then sectionText (s.listing ds) else "" := by
  have hlines := rootLines_eq (p := s.projector) hc
    (Registry.declaredBy_new s.modules s.catalog) hds
  show unlines (_ ++ _) = _
  rw [unlines_append, hlines, registryAfter_new]
  cases shown with
  | false => rfl
  | true => exact congrArg _ (registeredLines_eq hc hds)

theorem provides_of_resolveNames (h : s.catalog.resolveNames names = .ok ds) :
    ∀ d ∈ ds, s.catalog.Provides d :=
  fun d hd => (s.catalog.denotes_resolveAll _ h d hd).provides

theorem contains_registered {e : Descriptor} :
    (s.registered ds).contains e =
      ((s.listing ds).map Listed.definitionName).contains e.definitionName := by
  rw [Bool.eq_iff_iff, Registry.contains_iff, List.contains_iff_mem, listing, List.map_map,
    List.mem_map]
  rfl

theorem linesText_append (dxs dys : List Descriptor) :
    s.linesText (dxs ++ dys) = s.linesText dxs ++ s.linesText dys := by
  rw [linesText, List.map_append, unlines_append]
  rfl

/-- Of the entries of further types only those are new whose definitions are not listed. -/
theorem listing_append (dxs dys : List Descriptor) :
    s.listing (dxs ++ dys) = s.listing dxs ++ missingFrom (s.listing dxs) (s.listing dys) := by
  have hregistered :
      s.registered (dxs ++ dys) = (s.registered dxs).registerAll (s.declared dys) := by
    rw [registered, registered, declared, List.flatMap_append, Registry.registerAll_append]
    rfl
  have hmodules : (s.registered dxs).modules = s.modules := Registry.modules_registerAll _ _
  rw [listing, hregistered, Registry.entries_registerAll_eq_filter, hmodules, List.map_append]
  congr 1
  rw [missingFrom, listing, listing, List.filter_map]
  congr 1
  refine List.filter_congr fun e _ => ?_
  rw [contains_registered]
  rfl

theorem account_listing (hc : s.catalog.Keyed) (h : s.catalog.resolveNames names = .ok ds) :
    s.Account names ds (s.listing ds) := by
  have hds := provides_of_resolveNames h
  refine ⟨Catalog.resolveNames_eq_ok_iff.1 h, ?listed_once, ?in_lines, ?complete⟩
  case listed_once =>
    rw [listing, List.map_map]
    exact (s.registered ds).nodup_definitionNames
  case in_lines =>
    intro l hl
    obtain ⟨e, he, rfl⟩ := List.mem_map.1 hl
    rcases Registry.mem_entries_registerAll he with he | he
    · cases he
    · obtain ⟨d, hd, he⟩ := List.mem_flatMap.1 he
      obtain ⟨hvisited, hdeclared⟩ := List.mem_filter.1 he
      exact ⟨d, hd, e, hvisited, hdeclared, rfl⟩
  case complete =>
    intro d hd x hx hdeclared
    have hmem : x ∈ s.declared ds :=
      List.mem_flatMap.2 ⟨d, hd, List.mem_filter.2 ⟨hx, hdeclared⟩⟩
    have hcontains : (s.registered ds).contains x = true :=
      Registry.contains_registerAll.2 (Or.inr ⟨x, hmem, rfl⟩)
    -- The entry may be another instantiation, which has the same name.
    obtain ⟨e, he, hkey⟩ := Registry.contains_iff.1 hcontains
    have hname := Registry.declaredName_eq_of_sameDefinition (.new s.modules) s.projector.config
      ((declaredBy_registered hc hds).declares e he) (declares_of_mem_declared hc hds x hmem) hkey
    refine List.mem_map.2 ⟨e, he, ?_⟩
    rw [entry, entry, nameOf, nameOf, hname, hkey]

end Sources

/-! ## Reports -/

section Runs

variable {fs : FileSystem} {o : ReportOptions} {s : Sources} {names : List String}

theorem load_on (fs : FileSystem) (o : ReportOptions) (names : List String) (shown : Bool) :
    load fs (o.on names shown) = load fs o := rfl

theorem built_of_load (h : load fs o = .ok s) : s.catalog.Built := by
  unfold load at h
  split at h
  · cases h
  · split at h
    · cases h
    · rename_i hcatalog
      obtain rfl := Except.ok.inj h
      unfold loadCatalog at hcatalog
      split at hcatalog
      · cases hcatalog
      · rename_i text _
        cases htext : Catalog.ofText text with
        | error e =>
          rw [htext] at hcatalog
          cases hcatalog
        | ok c =>
          rw [htext] at hcatalog
          obtain rfl := Except.ok.inj hcatalog
          exact Catalog.built_ofText htext

/-- Once the files are loaded, the names decide. -/
theorem report_on (hload : load fs o = .ok s) (hnames : names ≠ []) (shown : Bool) :
    report fs (o.on names shown) =
      ((s.catalog.resolveNames names).map (s.render shown)).mapError .catalog := by
  have htypes : s.types names = s.catalog.resolveNames names := by
    rw [Sources.types, if_neg (by simpa using hnames)]
  rw [report, load_on, hload]
  simp only [ReportOptions.on, htypes]
  cases s.catalog.resolveNames names <;> rfl

theorem report_of_resolveNames_ok {ds : List Descriptor} (hload : load fs o = .ok s)
    (hnames : names ≠ []) (hds : s.catalog.resolveNames names = .ok ds) (shown : Bool) :
    report fs (o.on names shown) =
      .ok (s.linesText ds ++ if shown then sectionText (s.listing ds) else "") := by
  rw [report_on hload hnames, hds]
  exact congrArg Except.ok
    (Sources.render_eq (built_of_load hload).keyed (Sources.provides_of_resolveNames hds) shown)

theorem report_of_resolveNames_error {e : CatalogError} (hload : load fs o = .ok s)
    (hnames : names ≠ []) (he : s.catalog.resolveNames names = .error e) (shown : Bool) :
    report fs (o.on names shown) = .error (.catalog e) := by
  rw [report_on hload hnames, he]
  rfl

/-- A report on types by name has been made of files that load and of names that resolve. -/
theorem resolveNames_of_report {text : String} {shown : Bool} (hnames : names ≠ [])
    (h : report fs (o.on names shown) = .ok text) :
    ∃ s ds, load fs o = .ok s ∧ s.catalog.resolveNames names = .ok ds := by
  cases hload : load fs o with
  | error e =>
    rw [report, load_on, hload] at h
    cases h
  | ok s =>
    cases hds : s.catalog.resolveNames names with
    | ok ds => exact ⟨s, ds, rfl, hds⟩
    | error e =>
      rw [report_of_resolveNames_error hload hnames hds] at h
      cases h

/-- No name of a list makes a report if one of them does not resolve. -/
theorem report_of_unresolved (hload : load fs o = .ok s)
    (h : ∃ name ∈ names, ∀ d, s.catalog.resolveName name ≠ .ok d) :
    ∃ before name after e, names = before ++ name :: after ∧
      (∀ b ∈ before, ∃ d, s.catalog.resolveName b = .ok d) ∧
      s.catalog.resolveName name = .error e ∧
      ∀ shown, report fs (o.on names shown) = .error (.catalog e) := by
  obtain ⟨name, hname, hunresolved⟩ := h
  have hnames : names ≠ [] := List.ne_nil_of_mem hname
  cases hds : s.catalog.resolveNames names with
  | ok ds =>
    have hresolved := Catalog.resolveNames_eq_ok_iff.1 hds
    have hall : ∀ name ∈ names, ∃ d, s.catalog.resolveName name = .ok d :=
      ((List.forall₂_and_left _ _).1 (hresolved.imp fun _ d hd => ⟨⟨d, hd⟩, hd⟩)).1
    obtain ⟨d, hd⟩ := hall name hname
    exact absurd hd (hunresolved d)
  | error e =>
    obtain ⟨before, name, after, hsplit, hbefore, he⟩ := Catalog.resolveNames_eq_error_iff.1 hds
    exact ⟨before, name, after, e, hsplit, hbefore, he,
      report_of_resolveNames_error hload hnames hds⟩

/-- **Reports are compositional.** Take any files and options and two lists of names that are not
empty. If there is a report on each, the report on the names of both is the one text behind the other.
With the section, the three reports are these texts with the sections behind them: each lists, with
their number, the entries of declared types that stand in the lines, one for each definition and by the
name that the type has in the lines; and the section on the names of both lists the entries of the
first and then those of the second whose definitions are not listed yet. If the files load and some
name of a list does not resolve, the report fails with the error of the first such name, and nothing
is printed. -/
theorem report_append (fs : FileSystem) (o : ReportOptions) {xs ys : List String} (hxs : xs ≠ [])
    (hys : ys ≠ []) :
    (∀ tx ty, report fs (o.on xs false) = .ok tx → report fs (o.on ys false) = .ok ty →
      report fs (o.on (xs ++ ys) false) = .ok (tx ++ ty) ∧
      ∃ s dxs dys lx ly, load fs o = .ok s ∧
        s.Account xs dxs lx ∧ s.Account ys dys ly ∧
        s.Account (xs ++ ys) (dxs ++ dys) (lx ++ missingFrom lx ly) ∧
        tx = s.linesText dxs ∧ ty = s.linesText dys ∧
        report fs (o.on xs true) = .ok (tx ++ sectionText lx) ∧
        report fs (o.on ys true) = .ok (ty ++ sectionText ly) ∧
        report fs (o.on (xs ++ ys) true) =
          .ok (tx ++ ty ++ sectionText (lx ++ missingFrom lx ly))) ∧
    ∀ s names, load fs o = .ok s → (∃ name ∈ names, ∀ d, s.catalog.resolveName name ≠ .ok d) →
      ∃ before name after e, names = before ++ name :: after ∧
        (∀ b ∈ before, ∃ d, s.catalog.resolveName b = .ok d) ∧
        s.catalog.resolveName name = .error e ∧
        ∀ shown, report fs (o.on names shown) = .error (.catalog e) ∧
          ∀ filter, (CommandLine.run fs filter (.project (o.on names shown))).output = "" := by
  constructor
  · intro tx ty htx hty
    obtain ⟨s, dxs, hload, hdxs⟩ := resolveNames_of_report hxs htx
    obtain ⟨s', dys, hload', hdys⟩ := resolveNames_of_report hys hty
    obtain rfl := Except.ok.inj (hload.symm.trans hload')
    have hkeyed := (built_of_load hload).keyed
    have hboth : s.catalog.resolveNames (xs ++ ys) = .ok (dxs ++ dys) :=
      Catalog.resolveNames_append hdxs hdys
    have hreport := report_of_resolveNames_ok hload hxs hdxs
    have hreport' := report_of_resolveNames_ok hload hys hdys
    have htogether := report_of_resolveNames_ok hload (by simp [hxs]) hboth
    have haccount := Sources.account_listing hkeyed hboth
    rw [Sources.listing_append] at haccount
    simp only [Sources.listing_append, Sources.linesText_append] at htogether
    obtain rfl : s.linesText dxs = tx := by
      simpa using Except.ok.inj ((hreport false).symm.trans htx)
    obtain rfl : s.linesText dys = ty := by
      simpa using Except.ok.inj ((hreport' false).symm.trans hty)
    exact ⟨by simpa using htogether false, s, dxs, dys, s.listing dxs, s.listing dys, hload,
      Sources.account_listing hkeyed hdxs, Sources.account_listing hkeyed hdys, haccount, rfl, rfl,
      hreport true, hreport' true, htogether true⟩
  · intro s names hload hunresolved
    obtain ⟨before, name, after, e, hsplit, hbefore, he, hreport⟩ :=
      report_of_unresolved hload hunresolved
    refine ⟨before, name, after, e, hsplit, hbefore, he, ?_⟩
    intro shown
    refine ⟨hreport shown, fun filter => ?_⟩
    simp only [CommandLine.run, hreport shown]

/-- A catalog of widgets and orders. -/
def shopText : String :=
  "\x7b \"types\": [\x7b \"namespace\": \"Shop\", \"name\": \"Widget\" \x7d, " ++
    "\x7b \"namespace\": \"Shop\", \"name\": \"Order\" \x7d] \x7d"

def shopFiles : FileSystem := fun path =>
  if path == "shop.json" then .ok shopText else .error .notFound

def shopOptions : ReportOptions := ⟨"shop.json", [], none, false, none, false⟩

/-- Two reports on the shop, the report on both, and no report on what the shop does not have. -/
theorem shop_reports :
    report shopFiles (shopOptions.on ["Shop.Widget"] false) =
        .ok "Shop.Widget => Shop.Widget\n" ∧
      report shopFiles (shopOptions.on ["Shop.Order[]", "Shop.Widget"] false) =
        .ok "Shop.Order[] => Shop.Order[]\nShop.Widget => Shop.Widget\n" ∧
      report shopFiles (shopOptions.on ["Shop.Widget", "Shop.Order[]", "Shop.Widget"] false) =
        .ok ("Shop.Widget => Shop.Widget\n" ++
          "Shop.Order[] => Shop.Order[]\nShop.Widget => Shop.Widget\n") ∧
      ∃ e, report shopFiles (shopOptions.on ["Shop.Widget", "Shop.Gone"] true) =
        .error (.catalog e) := by
  -- One evaluation, since each has to load the files.
  obtain ⟨hwidget, hrest, hgone⟩ :
      report shopFiles (shopOptions.on ["Shop.Widget"] false) =
          .ok "Shop.Widget => Shop.Widget\n" ∧
        report shopFiles (shopOptions.on ["Shop.Order[]", "Shop.Widget"] false) =
          .ok "Shop.Order[] => Shop.Order[]\nShop.Widget => Shop.Widget\n" ∧
        ((load shopFiles shopOptions).toOption.all fun s =>
          !(s.catalog.resolveName "Shop.Gone").isOk) = true := by
    decide +kernel
  obtain ⟨hreports, hfails⟩ := report_append shopFiles shopOptions
    (show ["Shop.Widget"] ≠ [] by decide) (show ["Shop.Order[]", "Shop.Widget"] ≠ [] by decide)
  obtain ⟨hboth, s, _, _, _, _, hload, _⟩ := hreports _ _ hwidget hrest
  rw [hload] at hgone
  have hunresolved : ∀ d, s.catalog.resolveName "Shop.Gone" ≠ .ok d := by
    intro d hd
    simp [Except.toOption, hd, Except.isOk, Except.toBool] at hgone
  obtain ⟨_, _, _, e, _, _, _, herror⟩ :=
    hfails s ["Shop.Widget", "Shop.Gone"] hload ⟨"Shop.Gone", by simp, hunresolved⟩
  exact ⟨hwidget, hrest, hboth, e, (herror true).1⟩

end Runs

end Report

end TypeProjection
