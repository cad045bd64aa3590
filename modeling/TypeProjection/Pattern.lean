import TypeProjection.Text.Alphanumeric
import TypeProjection.Text.Blank
import TypeProjection.Text.Digits
import TypeProjection.Text.Reader

/-!
# Patterns

The regular expressions that a value of a field may be compared with. Nothing is ever compared here,
because entries of the log have no such values; but a pattern has to be well formed, and it has to do
without tables of characters: the classes of letters, digits and white space, and the pairs of upper
and lower case, are there for bytes only.

A pattern is read once. Reading gives how deep it is nested, and settings in it that change what may
follow are kept up to the end of the group that they stand in.
-/

namespace TypeProjection

inductive PatternError where
  /-- It is malformed, or it needs a table of characters. -/
  | malformed
  /-- It asks for the boundary of a word of any script. -/
  | wordBoundary
deriving DecidableEq, Repr

def PatternError.message : PatternError → String
  | malformed => "error building NFA"
  | wordBoundary =>
    "unsupported regex feature for DFAs: cannot build DFAs for regexes with Unicode word " ++
      "boundaries; switch to ASCII word boundaries, or heuristically enable Unicode word " ++
      "boundaries or use a different regex engine"

namespace Pattern

open Reader

/-- The settings in force at a place of a pattern. -/
structure Settings where
  /-- White space and comments are passed over. -/
  verbose : Bool
  ignoreCase : Bool
  /-- Characters count, not bytes. -/
  unicode : Bool

/-- What is known at a place of a pattern. -/
structure Context where
  settings : Settings
  names : List String
  /-- Whether the boundary of a word of any script was asked for. -/
  wordBoundary : Bool

def Context.start : Context := ⟨⟨false, false, true⟩, [], false⟩

/-- A reader that knows where it is in a pattern. -/
abbrev PatternReader (α : Type) := StateT Context Reader α

def settings : PatternReader Settings := return (← get).settings

def setSettings (s : Settings) : PatternReader Unit := modify fun c => { c with settings := s }

def ahead : Reader (List Char) := fun s => some (s, s)

def next : Reader Char := one fun _ => true

/-! ## White space -/

def comment : Reader Unit := do
  char '#'
  let _ ← while_ (· != '\n')
  let _ ← optional? (char '\n')

/-- White space and comments, where they are passed over. -/
def blanksIf (verbose : Bool) : Reader Unit := do
  if verbose then
    let _ ← many ((do let _ ← while1 Text.isBlankChar) <|> comment)

def blanks : PatternReader Unit := do
  blanksIf (← settings).verbose

/-- The character that is looked at behind the next one. White space is passed over where it counts
for nothing, but of a comment only its mark. -/
def peekBehind? (verbose : Bool) : List Char → Option Char
  | [] => none
  | _ :: rest =>
    if verbose then
      match rest.dropWhile Text.isBlankChar with
      | '#' :: comment => (comment.dropWhile Text.isBlankChar).head?.or rest.head?
      | c :: _ => some c
      | [] => rest.head?
    else rest.head?

/-! ## Single characters -/

structure Literal where
  char : Char
  /-- Whether it is written as a byte. -/
  isByte : Bool

/-- What one character or escape stands for. -/
inductive Atom where
  | literal (literal : Literal)
  | anchor
  | wordBoundary
  /-- Digits, white space or letters, or all but these. -/
  | namedClass (negated : Bool)

def codeDigits : Nat → PatternReader (List Char)
  | 0 => do
    blanks
    return []
  | n + 1 => do
    blanks
    let c ← one Digits.isHex
    return c :: (← codeDigits n)

/-- A character given by its code point. -/
def codePoint (digits : Nat) : PatternReader Atom := do
  let n := Digits.number 16 (← codeDigits digits)
  require (decide n.isValidChar)
  return .literal ⟨Char.ofNat n, digits == 2⟩

/-- Whether a character stands for itself behind a backslash. -/
def isEscapable (c : Char) : Bool := c.toNat < 0x80 && !c.isAlphanum && c != '<' && c != '>'

/-- What stands behind a backslash. -/
def escape : PatternReader Atom := do
  match ← next with
  | 'x' => codePoint 2
  | 'u' => codePoint 4
  | 'U' => codePoint 8
  | 'd' | 's' | 'w' => return .namedClass false
  | 'D' | 'S' | 'W' => return .namedClass true
  | 'a' => return .literal ⟨'\x07', false⟩
  | 'f' => return .literal ⟨'\x0c', false⟩
  | 't' => return .literal ⟨'\t', false⟩
  | 'n' => return .literal ⟨'\n', false⟩
  | 'r' => return .literal ⟨'\r', false⟩
  | 'v' => return .literal ⟨'\x0b', false⟩
  | 'A' | 'z' => return .anchor
  | 'b' | 'B' | '<' | '>' => return .wordBoundary
  | c =>
    require (isEscapable c)
    return .literal ⟨c, false⟩

/-- A literal needs a table where case is ignored, and a byte above ASCII is no character. Among the
bytes of a class there are only characters of ASCII. -/
def useLiteral (inClass : Bool) (l : Literal) : PatternReader Unit := do
  let s ← settings
  require <|
    if s.unicode then !s.ignoreCase
    else l.char.toNat < 0x80 || (!inClass && !l.isByte)

/-- A class needs a table unless it holds bytes, and all but some bytes are no characters. -/
def useNamedClass (negated : Bool) : PatternReader Unit := do
  require (!(← settings).unicode && !negated)

def single : PatternReader Unit := do
  match ← next with
  | '.' => require (← settings).unicode
  | '^' | '$' => return ()
  | '\\' =>
    match ← escape with
    | .literal l => useLiteral false l
    | .anchor => return ()
    | .wordBoundary =>
      if (← settings).unicode then
        modify fun c => { c with wordBoundary := true }
    | .namedClass negated => useNamedClass negated
  | c => useLiteral false ⟨c, false⟩

/-! ## Classes -/

/-- The depth of parts side by side: one alone adds nothing. -/
def depthOfAll : List Nat → Nat
  | [] => 0
  | [depth] => depth
  | depths => depths.foldl max 0 + 1

/-- The classes of ASCII that have a name. -/
def asciiClasses : List String :=
  ["alnum", "alpha", "ascii", "blank", "cntrl", "digit", "graph", "lower", "print", "punct", "space",
    "upper", "word", "xdigit"]

/-- A class of ASCII, by its name between colons, and whether it is negated. -/
def asciiClass : Reader Bool := do
  word ['[', ':']
  let negation ← optional? (char '^')
  let name ← while_ (· != ':')
  word [':', ']']
  require (asciiClasses.contains (String.ofList name))
  return negation.isSome

/-- A negated class is there for characters only. -/
def useNegation (negated : Bool) : PatternReader Unit := do
  require (!negated || (← settings).unicode)

/-- A class of ASCII needs a table where case is ignored. -/
def useAsciiClass (negated : Bool) : PatternReader Unit := do
  let s ← settings
  useNegation negated
  require !(s.unicode && s.ignoreCase)

/-- The start of a class, behind its bracket: a negation, and dashes or a bracket that stand for
themselves. Gives the depths of these items. -/
def classStart : PatternReader (List Nat) := do
  let verbose := (← settings).verbose
  blanks
  let negation ← optional? (do char '^'; blanksIf verbose)
  useNegation negation.isSome
  let dashes ← many (do char '-'; blanksIf verbose)
  let bracket ← if dashes.isEmpty then optional? (do char ']'; blanksIf verbose) else pure none
  let items := dashes ++ bracket.toList
  if !items.isEmpty then
    useLiteral true ⟨'-', false⟩
  return items.map fun _ => 0

/-- One character or escape in a class. -/
def classAtom : PatternReader Atom := do
  match ← next with
  | '\\' => escape
  | c => return .literal ⟨c, false⟩

/-- A character, a range of characters or a named class. -/
def classItem : PatternReader Unit := do
  let verbose := (← settings).verbose
  let first ← classAtom
  blanks
  let rest ← ahead
  let behind := peekBehind? verbose rest
  if rest.head? == some '-' && behind != some ']' && behind != some '-' then
    char '-'
    blanks
    match first, ← classAtom with
    | .literal a, .literal b =>
      require (a.char.toNat ≤ b.char.toNat)
      useLiteral true a
      useLiteral true b
    | _, _ => refuse
  else
    match first with
    | .literal l => useLiteral true l
    | .namedClass negated => useNamedClass negated
    | .anchor | .wordBoundary => refuse

/-- The depth of a set that is combined with those to its left. -/
def depthOfSet (left? : Option Nat) (items : List Nat) : Nat :=
  match left? with
  | none => depthOfAll items
  | some left => max left (depthOfAll items) + 1

/-- The rest of a class up to its closing bracket, by the depths of the items that were read and of
the set to the left of the last operator. Gives the depth of what is inside. -/
def classRest : Nat → Option Nat → List Nat → PatternReader Nat
  | 0, _, _ => refuse
  | n + 1, left?, items => do
    blanks
    match ← ahead with
    | '[' :: _ =>
      match ← optional? asciiClass with
      | some negated =>
        useAsciiClass negated
        classRest n left? (0 :: items)
      | none =>
        char '['
        let inner ← classRest n none (← classStart)
        classRest n left? ((inner + 1) :: items)
    | ']' :: _ =>
      char ']'
      return depthOfSet left? items
    | '&' :: '&' :: _ =>
      word ['&', '&']
      classRest n (some (depthOfSet left? items)) []
    | '-' :: '-' :: _ =>
      word ['-', '-']
      classRest n (some (depthOfSet left? items)) []
    | '~' :: '~' :: _ =>
      word ['~', '~']
      classRest n (some (depthOfSet left? items)) []
    | _ =>
      classItem
      classRest n left? (0 :: items)

/-! ## Groups -/

/-- The name of a group, behind its angle bracket. No two groups have one name. -/
def groupName : PatternReader Unit := do
  let name ← while_ (· != '>')
  char '>'
  let taken := (← get).names
  match name with
  | [] => refuse
  | c :: rest =>
    require (c == '_' || Text.isLetter c)
    require (rest.all fun c => c == '_' || c == '.' || c == '[' || c == ']' || Text.isAlphanumeric c)
  require !(taken.contains (String.ofList name))
  modify fun c => { c with names := String.ofList name :: c.names }

/-- Whether letters change settings: each at most once, and those to turn off behind one dash. -/
def areFlags (letters : List Char) : Bool :=
  letters.all (fun c => ['i', 'm', 's', 'U', 'u', 'R', 'x', '-'].contains c) &&
    decide letters.Nodup && letters.getLast? != some '-'

/-- Settings that letters have changed. -/
def Settings.changedBy (s : Settings) (letters : List Char) : Settings :=
  let on := letters.takeWhile (· != '-')
  let off := letters.dropWhile (· != '-')
  let change (letter : Char) (before : Bool) : Bool :=
    on.contains letter || (before && !off.contains letter)
  ⟨change 'x' s.verbose, change 'i' s.ignoreCase, change 'u' s.unicode⟩

/-- What an opening parenthesis begins. -/
inductive Opening where
  /-- Settings for what follows; nothing is grouped. -/
  | settings (settings : Settings)
  /-- A group with settings of its own. -/
  | group (settings : Settings)

/-- The start of a group, behind its parenthesis. -/
def opening : PatternReader Opening := do
  blanks
  let s ← settings
  match ← ahead with
  | '?' :: 'P' :: '<' :: _ =>
    word ['?', 'P', '<']
    groupName
    return .group s
  | '?' :: '<' :: _ =>
    word ['?', '<']
    groupName
    return .group s
  | '?' :: _ =>
    char '?'
    let letters ← while_ fun c => c != ':' && c != ')'
    require (areFlags letters)
    if (← next) == ':' then return .group (s.changedBy letters)
    else
      require !letters.isEmpty
      return .settings (s.changedBy letters)
  | _ => return .group s

/-! ## Patterns -/

inductive Part where
  /-- A change of settings, which cannot be repeated. -/
  | settings
  | nested (depth : Nat)

def Part.depth : Part → Nat
  | settings => 0
  | nested depth => depth

def depthOfParts (parts : List Part) : Nat := depthOfAll (parts.map Part.depth)

/-- The rest of a pattern or of a group, by the parts of the sequence so far, last first, and the
depths of the alternatives before it. Gives the depth of the whole. -/
def patternRest : Nat → List Nat → List Part → PatternReader Nat
  | 0, _, _ => refuse
  | n + 1, alternatives, parts => do
    blanks
    match ← peek? with
    | none | some ')' => return depthOfAll (depthOfParts parts :: alternatives)
    | some '|' =>
      char '|'
      patternRest n (depthOfParts parts :: alternatives) []
    | some '(' =>
      char '('
      match ← opening with
      | .settings inner =>
        setSettings inner
        patternRest n alternatives (.settings :: parts)
      | .group inner =>
        let outer ← settings
        setSettings inner
        let depth ← patternRest n [] []
        char ')'
        setSettings outer
        patternRest n alternatives (.nested (depth + 1) :: parts)
    | some '[' =>
      char '['
      let depth ← classRest n none (← classStart)
      patternRest n alternatives (.nested (depth + 1) :: parts)
    | some '{' => refuse
    | some c =>
      if c == '?' || c == '*' || c == '+' then
        match parts with
        | .nested depth :: before =>
          let _ ← next
          let _ ← optional? (char '?')
          patternRest n alternatives (.nested (depth + 1) :: before)
        | _ => refuse
      else
        single
        patternRest n alternatives (.nested 0 :: parts)

def maxDepth : Nat := 250

/-- Reads a whole pattern. A text of `n` characters has at most `n` parts. -/
def read? (text : List Char) : Option Context :=
  let reader : Reader Context := do
    let (depth, context) ← (patternRest (text.length + 1) [] []).run .start
    require (depth ≤ maxDepth)
    return context
  readAll? reader text

/-- Whether a pattern can be used, or why it cannot. -/
def check (text : String) : Except PatternError Unit :=
  match read? text.toList with
  | none => .error .malformed
  | some context => if context.wordBoundary then .error .wordBoundary else .ok ()

end Pattern

end TypeProjection
