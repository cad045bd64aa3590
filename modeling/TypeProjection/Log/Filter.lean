import TypeProjection.Log.Directive

/-!
# Log filters

A filter decides which entries of the log are shown. Of its directives that fit an entry the most
specific one counts.
-/

namespace TypeProjection

/-- Directives in the order in which they are written. -/
structure LogFilter where
  directives : List LogDirective
  /-- What is said of the texts that are no directives. -/
  complaints : List String
deriving DecidableEq, Repr

namespace LogDirective

/-- Whether a directive is about an entry. Every entry lies outside of all spans, and the values of
fields are looked at in spans only. -/
def fits (e : LogEntry) (d : LogDirective) : Bool :=
  d.span?.isNone &&
    d.target?.all (fun start => start.toList.isPrefixOf e.target.toList) &&
    d.field?.all fun field => !field.hasValue && e.hasField field.name

/-- How specific the target of a directive is: longer ones are more specific, and none is least. -/
def targetWeight (d : LogDirective) : Nat := d.target?.elim 0 fun start => start.utf8ByteSize + 1

/-- Whether the field of one directive is at most as specific as that of another. No field is least,
and fields are compared by their names. -/
def fieldAtMost (a b : LogDirective) : Bool :=
  match a.field?, b.field? with
  | none, _ => true
  | some _, none => false
  | some f, some g => decide (f.name ≤ g.name)

/-- Whether one directive is at most as specific as another. The target counts before the field. -/
def atMost (a b : LogDirective) : Bool :=
  decide (a.targetWeight < b.targetWeight) ||
    (a.targetWeight == b.targetWeight && a.fieldAtMost b)

/-- The more specific of two directives, and of equally specific ones the later. -/
def moreSpecific (best? : Option LogDirective) (d : LogDirective) : Option LogDirective :=
  match best? with
  | none => some d
  | some best => if best.atMost d then some d else some best

end LogDirective

namespace LogFilter

/-- The directives of texts, and what is said of those that are none. There is no filter at all if a
word would be cut inside a character. -/
def ofTexts? : List String → Option (List LogDirective × List String)
  | [] => some ([], [])
  | text :: rest =>
    match LogDirective.ofText text with
    | .ok directive =>
      (ofTexts? rest).map fun (directives, complaints) => (directive :: directives, complaints)
    | .error .insideCharacter => none
    | .error e =>
      (ofTexts? rest).map fun (directives, complaints) =>
        (directives, ("ignoring `" ++ text ++ "`: " ++ e.message) :: complaints)

/-- The filter of a text with commas between directives. Without any directive, errors are shown. -/
def ofDirectives? (text : String) : Option LogFilter :=
  match ofTexts? ((text.splitOn ",").filter (· != "")) with
  | none => none
  | some ([], complaints) => some ⟨[.ofRank LogLevel.error.rank], complaints⟩
  | some (directives, complaints) => some ⟨directives, complaints⟩

/-- A level for the targets of this program. -/
def ofLevel (level : LogLevel) : LogFilter :=
  ⟨[.ofTarget "typegap" level.rank, .ofTarget "typegap_core" level.rank], []⟩

/-- The filter that a user asks for: the name of a level alone is for the targets of this program. -/
def ofSpec? (spec : String) : Option LogFilter :=
  match LogLevel.ofName? spec with
  | some level => some (ofLevel level)
  | none => ofDirectives? spec

def default : LogFilter := ofLevel .info

def silent : LogFilter := ⟨[.ofRank 0], []⟩

/-- The directive that counts for an entry. -/
def directiveFor? (f : LogFilter) (e : LogEntry) : Option LogDirective :=
  (f.directives.filter (LogDirective.fits e)).foldl LogDirective.moreSpecific none

def shows (f : LogFilter) (e : LogEntry) : Bool :=
  (f.directiveFor? e).any fun d => decide (e.level.rank ≤ d.maxRank)

end LogFilter

end TypeProjection
