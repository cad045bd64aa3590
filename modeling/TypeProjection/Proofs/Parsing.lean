import TypeProjection.Proofs.Grammar

/-!
# Reading phrases back

The parser reads every phrase back, whatever follows that cannot continue it (`isRead`), and what it
reads is a phrase (`readType_sound`). So it accepts exactly the texts that the grammar derives, and a
text has one tree at most (`parse?_eq_some_iff`).
-/

namespace TypeProjection

namespace Grammar

/-! ## Paths -/

theorem isPathChar_of_mem_intercalate {words : List (List Char)}
    (h : ∀ word ∈ words, isIdentifier word = true) :
    ∀ c ∈ ['.'].intercalate words, isPathChar c = true := by
  induction words with
  | nil =>
    intro c hc
    cases hc
  | cons word rest ih =>
    have hword : ∀ c ∈ word, isPathChar c = true := by
      intro c hc
      have hident := h word List.mem_cons_self
      rw [isIdentifier, Bool.and_eq_true] at hident
      rw [isPathChar, List.all_eq_true.1 hident.2 c hc, Bool.or_true]
    have hrest := ih fun word hw => h word (List.mem_cons_of_mem _ hw)
    cases rest with
    | nil =>
      intro c hc
      rw [List.intercalate_singleton] at hc
      exact hword c hc
    | cons next rest =>
      intro c hc
      rw [List.intercalate_cons_cons, List.append_assoc] at hc
      rcases List.mem_append.1 hc with hc | hc
      · exact hword c hc
      rcases List.mem_append.1 hc with hc | hc
      · rw [List.mem_singleton.1 hc]
        rfl
      · exact hrest c hc

theorem isPathChar_of_mem (path : Path) : ∀ c ∈ path.text.toList, isPathChar c = true := by
  have h := path.isPath
  rw [isPath, List.all_eq_true] at h
  have hchars := isPathChar_of_mem_intercalate h
  rw [List.intercalate_splitOn] at hchars
  exact hchars

/-- The characters that stand around paths. None of them belongs to one. -/
def delimiters : List Char := ['(', ')', '[', ']', '<', '>', '\x7b', ',', ' ']

theorem isPathChar_delimiter {c : Char} (h : c ∈ delimiters) : isPathChar c = false := by
  have hall : delimiters.all (fun c => !isPathChar c) = true := by decide +kernel
  simpa using List.all_eq_true.1 hall c h

theorem isPathChar_head?_delimiter {c : Char} (h : c ∈ delimiters) (rest : List Char) :
    ∀ d, (c :: rest).head? = some d → isPathChar d = false := by
  intro d hd
  rw [← Option.some.inj hd]
  exact isPathChar_delimiter h

theorem isPath_any : isPath "any" = true := by decide +kernel

theorem toList_path_ne_nil (path : Path) : path.text.toList ≠ [] := by
  intro hnil
  have h := path.isPath
  rw [isPath, hnil] at h
  cases h

/-- Paths are joined by a dot. -/
theorem isPath_join {a b : String} (ha : isPath a = true) (hb : isPath b = true) :
    isPath (a ++ "." ++ b) = true := by
  have hchars : (a ++ "." ++ b).toList = a.toList ++ '.' :: b.toList := by simp
  rw [isPath, hchars, List.splitOn_append_cons_self, List.all_append]
  rw [isPath] at ha hb
  rw [ha, hb]
  rfl

/-! ## Tokens -/

theorem after?_append (token rest : List Char) : after? token (token ++ rest) = some rest := by
  rw [after?, if_pos (by simp), List.drop_left]

theorem after?_eq_some {token cs rest : List Char} (h : after? token cs = some rest) :
    cs = token ++ rest := by
  unfold after? at h
  split at h
  · rename_i hprefix
    obtain ⟨tail, rfl⟩ := List.isPrefixOf_iff_prefix.1 hprefix
    rw [← Option.some.inj h, List.drop_left]
  · cases h

theorem after?_singleton_eq_none {c : Char} {cs : List Char} (h : cs.head? ≠ some c) :
    after? [c] cs = none := by
  cases cs with
  | nil => rfl
  | cons d rest =>
    have hne : c ≠ d := by
      rintro rfl
      exact h rfl
    simp [after?, hne]

theorem head?_path (path : Path) (rest : List Char) :
    ∃ c, (path.text.toList ++ rest).head? = some c ∧ isPathChar c = true := by
  obtain ⟨c, tail, hchars⟩ := List.exists_cons_of_ne_nil (toList_path_ne_nil path)
  refine ⟨c, by rw [hchars]; rfl, isPathChar_of_mem path c ?_⟩
  rw [hchars]
  exact List.mem_cons_self

theorem head?_path_ne (path : Path) (rest : List Char) {delimiter : Char}
    (h : delimiter ∈ delimiters) : (path.text.toList ++ rest).head? ≠ some delimiter := by
  obtain ⟨c, hhead, hpath⟩ := head?_path path rest
  rw [hhead]
  intro heq
  rw [Option.some.inj heq, isPathChar_delimiter h] at hpath
  cases hpath

/-! ## What may follow -/

/-- A rest that does not go on with an atom: no character of a name, no arguments and no note. -/
structure Ends (rest : List Char) : Prop where
  name : ∀ c, rest.head? = some c → isPathChar c = false
  args : rest.head? ≠ some '<'
  note : after? Grammar.note rest = none

theorem ends_nil : Ends [] := by
  refine ⟨?_, ?_, rfl⟩
  · intro c h
    cases h
  · intro h
    cases h

theorem ends_cons {c : Char} {rest : List Char} (hname : isPathChar c = false) (hargs : c ≠ '<')
    (hnote : c ≠ ' ') : Ends (c :: rest) := by
  refine ⟨?_, ?_, ?_⟩
  · intro d h
    rw [← Option.some.inj h]
    exact hname
  · intro h
    exact hargs (Option.some.inj h)
  · simp [after?, Grammar.note, Ne.symm hnote]

/-- A rest that does not go on with a type either: no brackets and no null arm. -/
structure Closes (rest : List Char) : Prop extends Ends rest where
  brackets : rest.head? ≠ some '['
  nullArm : after? Grammar.nullArm rest = none

theorem closes_cons {c : Char} {rest : List Char} (hends : Ends (c :: rest)) (hbrackets : c ≠ '[')
    (hnull : after? nullArm (c :: rest) = none) : Closes (c :: rest) := by
  refine ⟨hends, ?_, hnull⟩
  intro h
  exact hbrackets (Option.some.inj h)

/-- A character that ends a type: a closing one, or the comma. -/
theorem closes_of_mem {c : Char} (hc : c ∈ [')', ']', '>', ',']) (rest : List Char) :
    Closes (c :: rest) := by
  have hsubset : [')', ']', '>', ','] ⊆ delimiters := by simp [delimiters]
  have hname : isPathChar c = false := isPathChar_delimiter (hsubset hc)
  have hall : [')', ']', '>', ','].all (fun c => c != '<' && c != ' ' && c != '[') = true := rfl
  have hchar := List.all_eq_true.1 hall c hc
  simp only [Bool.and_eq_true, bne_iff_ne] at hchar
  obtain ⟨⟨hargs, hspace⟩, hbrackets⟩ := hchar
  refine closes_cons (ends_cons hname hargs hspace) hbrackets ?_
  simp [after?, nullArm, Ne.symm hspace]

theorem closes_nil : Closes [] := by
  refine ⟨ends_nil, ?_, rfl⟩
  intro h
  cases h

theorem ends_space {rest : List Char} (h : after? note (' ' :: rest) = none) :
    Ends (' ' :: rest) := by
  refine ⟨isPathChar_head?_delimiter (by simp [delimiters]) rest, ?_, h⟩
  intro hc
  cases hc

theorem closes_mapClose (rest : List Char) : Closes (mapClose ++ rest) :=
  closes_cons (ends_space rfl) (by decide) rfl

theorem ends_nullArm (rest : List Char) : Ends (nullArm ++ rest) := ends_space rfl

theorem ends_brackets (rest : List Char) : Ends ('[' :: rest) :=
  ends_cons (isPathChar_delimiter (by simp [delimiters])) (by decide) (by decide)

/-! ## Loops and paths -/

theorem readPath_append (path : Path) {rest : List Char}
    (h : ∀ c, rest.head? = some c → isPathChar c = false) :
    readPath (path.text.toList ++ rest) = some (path, rest) := by
  have hpath := isPathChar_of_mem path
  have htake : rest.takeWhile isPathChar = [] := by
    cases rest with
    | nil => rfl
    | cons c tail => exact List.takeWhile_cons_of_neg (by simp [h c rfl])
  have hdrop : rest.dropWhile isPathChar = rest := by
    cases rest with
    | nil => rfl
    | cons c tail => exact List.dropWhile_cons_of_neg (by simp [h c rfl])
  have hword : String.ofList ((path.text.toList ++ rest).takeWhile isPathChar) = path.text := by
    rw [List.takeWhile_append_of_pos hpath, htake, List.append_nil, String.ofList_toList]
  have hrest : (path.text.toList ++ rest).dropWhile isPathChar = rest := by
    rw [List.dropWhile_append_of_pos hpath, hdrop]
  unfold readPath
  rw [dif_pos (by rw [hword]; exact path.isPath), hrest]
  simp only [hword]

theorem readBrackets_eq {rest : List Char} (h : rest.head? ≠ some '[') (e : Expr) :
    readBrackets e rest = (e, rest) := by
  unfold readBrackets
  split
  · exact absurd rfl h
  · rfl

theorem readNulls_eq {rest : List Char} (h : after? nullArm rest = none) (e : Expr) :
    readNulls e rest = (e, rest) := by
  unfold readNulls
  split
  · cases h
  · rfl

/-! ## What each reader needs -/

section Readers

variable {read : Reader} {cs cs' rest : List Char}

theorem readGroup_eq {e : Expr} (h : read cs = some (e, ')' :: rest)) :
    readGroup read ('(' :: cs) = some (e, rest) := by
  have hopen : after? ['('] ('(' :: cs) = some cs := after?_append ['('] cs
  have hclose : after? [')'] (')' :: rest) = some rest := after?_append [')'] rest
  simp [readGroup, hopen, h, hclose]

theorem readMap_eq {key value : Expr} (hkey : read cs = some (key, mapMiddle ++ cs'))
    (hvalue : read cs' = some (value, mapClose ++ rest)) :
    readMap read (mapOpen ++ cs) = some (.map key value, rest) := by
  simp [readMap, after?_append, hkey, hvalue]

theorem readArgs_last {limit : Nat} {arg : Expr} (harg : read cs = some (arg, '>' :: rest)) :
    readArgs read (limit + 1) cs = some ([arg], '>' :: rest) := by
  have hcomma : after? comma ('>' :: rest) = none := by simp [after?, comma]
  simp [readArgs, harg, hcomma]

theorem readArgs_more {limit : Nat} {arg : Expr} {args : List Expr}
    (harg : read cs = some (arg, comma ++ cs'))
    (hargs : readArgs read limit cs' = some (args, rest)) :
    readArgs read (limit + 1) cs = some (arg :: args, rest) := by
  simp [readArgs, harg, after?_append, hargs]

theorem readNamed_name (path : Path) (hends : Ends rest) :
    readNamed read (path.text.toList ++ rest) = some (.named path.text, rest) := by
  simp [readNamed, readPath_append path hends.name, after?_singleton_eq_none hends.args,
    hends.note]

theorem readNamed_apply (path : Path) {args : List Expr}
    (hargs : readArgs read cs.length cs = some (args, '>' :: rest)) :
    readNamed read (path.text.toList ++ '<' :: cs) = some (.apply path.text args, rest) := by
  have hname := isPathChar_head?_delimiter (c := '<') (by simp [delimiters]) cs
  have hopen : after? ['<'] ('<' :: cs) = some cs := after?_append ['<'] cs
  have hclose : after? ['>'] ('>' :: rest) = some rest := after?_append ['>'] rest
  simp [readNamed, readPath_append path hname, hopen, hargs, hclose]

theorem readNamed_note (path : Path) (hpath : path.text = "any") :
    readNamed read (path.text.toList ++ (note ++ rest)) = some (.actionResult, rest) := by
  have hname : ∀ c, (note ++ rest).head? = some c → isPathChar c = false :=
    isPathChar_head?_delimiter (by simp [delimiters]) _
  have hopen : after? ['<'] (note ++ rest) = none := after?_singleton_eq_none (by simp [note])
  rw [readNamed, readPath_append path hname]
  simp [hopen, after?_append, hpath]

theorem readAtom_path (path : Path) :
    readAtom read (path.text.toList ++ rest) = readNamed read (path.text.toList ++ rest) := by
  have hgroup : (path.text.toList ++ rest).head? ≠ some '(' :=
    head?_path_ne path rest (by simp [delimiters])
  have hmap : (path.text.toList ++ rest).head? ≠ some '\x7b' :=
    head?_path_ne path rest (by simp [delimiters])
  rw [readAtom, if_neg hgroup, if_neg hmap]

theorem readAtom_group : readAtom read ('(' :: cs) = readGroup read ('(' :: cs) := by
  rw [readAtom, List.head?_cons, if_pos rfl]

theorem readAtom_map : readAtom read (mapOpen ++ cs) = readMap read (mapOpen ++ cs) := by
  rw [readAtom, if_neg (by simp [mapOpen]), if_pos (by simp [mapOpen])]

end Readers

/-! ## Phrases are read -/

namespace Phrase

theorem chars_ne_nil {level : Level} (phrase : Phrase level) : phrase.chars ≠ [] := by
  induction phrase with
  | name path => exact toList_path_ne_nil path
  | apply path args _ => simp [chars]
  | map key value _ _ => simp [chars, mapOpen]
  | group inner _ => simp [chars]
  | actionResult => simp [chars]
  | atom phrase ih => exact ih
  | array element _ => simp [chars]
  | item phrase ih => exact ih
  | orNull phrase _ => simp [chars, nullArm]
  | last arg ih => exact ih
  | more arg rest _ _ => simp [chars, comma]

/-- What it means that a phrase is read. An atom ends where it ends; behind an item brackets are read
on, and behind a type null arms. A depth is enough if no text of that length can nest deeper. -/
def IsRead : {level : Level} → Phrase level → Prop
  | .atom, phrase => ∀ depth rest, phrase.chars.length ≤ depth → Ends rest →
      readAtom (readType depth) (phrase.chars ++ rest) = some (phrase.tree, rest)
  | .item, phrase => ∀ depth rest, phrase.chars.length ≤ depth → Ends rest →
      readItem (readType depth) (phrase.chars ++ rest) = some (readBrackets phrase.tree rest)
  | .type, phrase => ∀ depth rest, phrase.chars.length < depth → Ends rest →
      rest.head? ≠ some '[' →
      readType depth (phrase.chars ++ rest) = some (readNulls phrase.tree rest)
  | .args, phrase => ∀ depth limit rest, phrase.chars.length < depth →
      phrase.chars.length ≤ limit →
      readArgs (readType depth) limit (phrase.chars ++ '>' :: rest) =
        some (phrase.tree, '>' :: rest)

/-- A type is read up to a rest that does not go on with it. -/
theorem IsRead.type {phrase : Phrase .type} (h : phrase.IsRead) (depth : Nat) {rest : List Char}
    (hdepth : phrase.chars.length < depth) (hrest : Closes rest) :
    readType depth (phrase.chars ++ rest) = some (phrase.tree, rest) := by
  rw [h depth rest hdepth hrest.toEnds hrest.brackets, readNulls_eq hrest.nullArm]

/-- The parser reads every phrase. The induction is on the derivation. The grammar is left-recursive
where the parser loops, so what is said of a phrase leaves open how the loop goes on. -/
theorem isRead {level : Level} (phrase : Phrase level) : phrase.IsRead := by
  induction phrase with
  | name path =>
    intro depth rest _ hends
    exact (readAtom_path path).trans (readNamed_name path hends)
  | apply path args ihargs =>
    intro depth rest hdepth _
    have hchars : (apply path args).chars ++ rest =
        path.text.toList ++ '<' :: (args.chars ++ '>' :: rest) := by simp [chars]
    simp only [chars, List.length_append, List.length_cons] at hdepth
    have hargs := ihargs depth (args.chars ++ '>' :: rest).length rest (by omega) (by simp)
    rw [hchars, readAtom_path]
    exact readNamed_apply path hargs
  | map key value ihkey ihvalue =>
    intro depth rest hdepth _
    have hchars : (map key value).chars ++ rest =
        mapOpen ++ (key.chars ++ (mapMiddle ++ (value.chars ++ (mapClose ++ rest)))) := by
      simp [chars]
    simp only [chars, List.length_append, mapOpen, List.length_cons] at hdepth
    have hkey := ihkey.type depth (by omega)
      (closes_of_mem (c := ']') (by simp) (':' :: ' ' :: (value.chars ++ (mapClose ++ rest))))
    have hvalue := ihvalue.type depth (by omega) (closes_mapClose rest)
    rw [hchars, readAtom_map]
    exact readMap_eq hkey hvalue
  | group inner ih =>
    intro depth rest hdepth _
    have hchars : (group inner).chars ++ rest = '(' :: (inner.chars ++ ')' :: rest) := by
      simp [chars]
    simp only [chars, List.length_append, List.length_cons] at hdepth
    have hinner := ih.type depth (by omega) (closes_of_mem (c := ')') (by simp) rest)
    rw [hchars, readAtom_group]
    exact readGroup_eq hinner
  | actionResult =>
    intro depth rest _ _
    have hchars : actionResult.chars ++ rest = "any".toList ++ (note ++ rest) := rfl
    rw [hchars]
    exact (readAtom_path ⟨"any", isPath_any⟩).trans (readNamed_note ⟨"any", isPath_any⟩ rfl)
  | atom phrase ih =>
    intro depth rest hdepth hends
    have hatom := ih depth rest hdepth hends
    show readItem _ (phrase.chars ++ rest) = _
    rw [readItem, hatom]
    rfl
  | array element ih =>
    intro depth rest hdepth _
    simp only [chars, List.length_append] at hdepth
    -- The loop over brackets goes on behind the element.
    have helement := ih depth ('[' :: ']' :: rest) (by omega) (ends_brackets _)
    have hchars : (array element).chars ++ rest = element.chars ++ '[' :: ']' :: rest := by
      simp [chars]
    rw [hchars, helement]
    rfl
  | item phrase ih =>
    intro depth rest hdepth hends hbrackets
    -- A type takes one from the depth, and the item in it is read with what is left.
    obtain ⟨depth, rfl⟩ := Nat.exists_eq_succ_of_ne_zero (Nat.ne_zero_of_lt hdepth)
    have hitem := ih depth rest (Nat.le_of_lt_succ hdepth) hends
    show readType (depth + 1) (phrase.chars ++ rest) = _
    rw [readType, hitem, readBrackets_eq hbrackets]
    rfl
  | orNull phrase ih =>
    intro depth rest hdepth _ _
    simp only [chars, List.length_append] at hdepth
    have htype := ih depth (nullArm ++ rest) (by omega) (ends_nullArm rest) (by simp [nullArm])
    have hchars : (orNull phrase).chars ++ rest = phrase.chars ++ (nullArm ++ rest) := by
      simp [chars]
    rw [hchars, htype]
    rfl
  | last arg ih =>
    intro depth limit rest hdepth hlimit
    -- No argument is empty, so the limit on their number is not used up.
    have hpos := List.length_pos_iff.2 arg.chars_ne_nil
    obtain ⟨limit, rfl⟩ := Nat.exists_eq_succ_of_ne_zero
      (Nat.ne_of_gt (Nat.lt_of_lt_of_le hpos hlimit))
    exact readArgs_last (ih.type depth hdepth (closes_of_mem (c := '>') (by simp) rest))
  | more arg args iharg ihargs =>
    intro depth limit rest hdepth hlimit
    simp only [chars, List.length_append, comma, List.length_cons] at hdepth hlimit
    obtain ⟨limit, rfl⟩ := Nat.exists_eq_succ_of_ne_zero (n := limit) (by omega)
    have harg := iharg.type depth (by omega)
      (closes_of_mem (c := ',') (by simp) (' ' :: (args.chars ++ '>' :: rest)))
    have hargs := ihargs depth limit rest (by omega) (by omega)
    have hchars : (more arg args).chars ++ '>' :: rest =
        arg.chars ++ (comma ++ (args.chars ++ '>' :: rest)) := by simp [chars]
    rw [hchars]
    exact readArgs_more harg hargs

end Phrase

/-- The parser reads the text of a derivation as its tree. -/
theorem parse?_of_derives {text : String} {e : Expr} (h : Derives text e) :
    parse? text = some e := by
  obtain ⟨phrase, hchars, rfl⟩ := h
  have hread := phrase.isRead.type _ (Nat.lt_succ_self _) closes_nil
  rw [List.append_nil, hchars] at hread
  rw [parse?, hread]

/-! ## What is read is a phrase -/

/-- A text begins with a phrase of the given tree, and the rest is left. -/
abbrev Begins (level : Level) (cs : List Char) (tree : level.Tree) (rest : List Char) : Prop :=
  ∃ phrase : Phrase level, phrase.tree = tree ∧ phrase.chars ++ rest = cs

/-- What a reader reads is a type. -/
def Sound (read : Reader) : Prop :=
  ∀ cs e rest, read cs = some (e, rest) → Begins .type cs e rest

section Soundness

variable {read : Reader} {cs rest : List Char} {e : Expr}

theorem readPath_sound {path : Path} (h : readPath cs = some (path, rest)) :
    path.text.toList ++ rest = cs := by
  unfold readPath at h
  split at h
  · obtain ⟨rfl, rfl⟩ := Prod.mk.inj (Option.some.inj h)
    rw [String.toList_ofList, List.takeWhile_append_dropWhile]
  · cases h

theorem readGroup_sound (hread : Sound read) (h : readGroup read cs = some (e, rest)) :
    Begins .atom cs e rest := by
  simp only [readGroup, Option.bind_eq_bind, Option.bind_eq_some_iff] at h
  obtain ⟨cs₁, hopen, ⟨inner, cs₂⟩, hinner, cs₃, hclose, heq⟩ := h
  obtain ⟨rfl, rfl⟩ := Prod.mk.inj (Option.some.inj heq)
  obtain ⟨phrase, htree, hchars⟩ := hread _ _ _ hinner
  have hend : cs₂ = [')'] ++ cs₃ := after?_eq_some hclose
  refine ⟨.group phrase, htree, ?_⟩
  rw [after?_eq_some hopen, ← hchars, hend]
  simp [Phrase.chars]

theorem readMap_sound (hread : Sound read) (h : readMap read cs = some (e, rest)) :
    Begins .atom cs e rest := by
  simp only [readMap, Option.bind_eq_bind, Option.bind_eq_some_iff] at h
  obtain ⟨cs₁, hopen, ⟨key, cs₂⟩, hkey, cs₃, hmiddle, ⟨value, cs₄⟩, hvalue, cs₅, hclose, heq⟩ := h
  obtain ⟨rfl, rfl⟩ := Prod.mk.inj (Option.some.inj heq)
  obtain ⟨keyPhrase, rfl, hkeyChars⟩ := hread _ _ _ hkey
  obtain ⟨valuePhrase, rfl, hvalueChars⟩ := hread _ _ _ hvalue
  have hafterKey : cs₂ = mapMiddle ++ cs₃ := after?_eq_some hmiddle
  have hafterValue : cs₄ = mapClose ++ cs₅ := after?_eq_some hclose
  refine ⟨.map keyPhrase valuePhrase, rfl, ?_⟩
  rw [after?_eq_some hopen, ← hkeyChars, hafterKey, ← hvalueChars, hafterValue]
  simp [Phrase.chars]

theorem readArgs_sound (hread : Sound read) {limit : Nat} {args : List Expr}
    (h : readArgs read limit cs = some (args, rest)) :
    Begins .args cs args rest := by
  induction limit generalizing cs args with
  | zero => cases h
  | succ limit ih =>
    simp only [readArgs, Option.bind_eq_bind, Option.bind_eq_some_iff] at h
    obtain ⟨⟨arg, cs₁⟩, harg, h⟩ := h
    obtain ⟨phrase, rfl, hchars⟩ := hread _ _ _ harg
    cases hcomma : after? comma cs₁ with
    | none =>
      simp only [hcomma] at h
      obtain ⟨rfl, rfl⟩ := Prod.mk.inj (Option.some.inj h)
      exact ⟨.last phrase, rfl, hchars⟩
    | some cs₂ =>
      simp only [hcomma, Option.bind_eq_some_iff] at h
      obtain ⟨⟨args', cs₃⟩, hargs, heq⟩ := h
      obtain ⟨rfl, rfl⟩ := Prod.mk.inj (Option.some.inj heq)
      obtain ⟨phrases, rfl, hrest⟩ := ih hargs
      refine ⟨.more phrase phrases, rfl, ?_⟩
      rw [← hchars, after?_eq_some hcomma, ← hrest]
      simp [Phrase.chars]

theorem readNamed_sound (hread : Sound read) (h : readNamed read cs = some (e, rest)) :
    Begins .atom cs e rest := by
  simp only [readNamed, Option.bind_eq_bind, Option.bind_eq_some_iff] at h
  obtain ⟨⟨path, cs₁⟩, hpath, h⟩ := h
  have hchars := readPath_sound hpath
  -- A path alone is what is left if neither arguments nor the note follow.
  have hname : (e, rest) = (.named path.text, cs₁) →
      Begins .atom cs e rest := by
    intro heq
    obtain ⟨rfl, rfl⟩ := Prod.mk.inj heq
    exact ⟨.name path, rfl, hchars⟩
  cases hopen : after? ['<'] cs₁ with
  | some cs₂ =>
    simp only [hopen, Option.bind_eq_some_iff] at h
    obtain ⟨⟨args, cs₃⟩, hargs, cs₄, hclose, heq⟩ := h
    obtain ⟨rfl, rfl⟩ := Prod.mk.inj (Option.some.inj heq)
    obtain ⟨phrases, rfl, hargsChars⟩ := readArgs_sound hread hargs
    have hend : cs₃ = ['>'] ++ cs₄ := after?_eq_some hclose
    refine ⟨.apply path phrases, rfl, ?_⟩
    rw [← hchars, after?_eq_some hopen, ← hargsChars, hend]
    simp [Phrase.chars]
  | none =>
    simp only [hopen] at h
    cases hnote : after? note cs₁ with
    | none =>
      simp only [hnote] at h
      exact hname (Option.some.inj h).symm
    | some cs₂ =>
      simp only [hnote] at h
      split at h
      · rename_i hany
        obtain ⟨rfl, rfl⟩ := Prod.mk.inj (Option.some.inj h)
        refine ⟨.actionResult, rfl, ?_⟩
        rw [← hchars, hany, after?_eq_some hnote]
        rfl
      · exact hname (Option.some.inj h).symm

theorem readAtom_sound (hread : Sound read) (h : readAtom read cs = some (e, rest)) :
    Begins .atom cs e rest := by
  unfold readAtom at h
  split at h
  · exact readGroup_sound hread h
  · split at h
    · exact readMap_sound hread h
    · exact readNamed_sound hread h

theorem readBrackets_sound (item : Phrase .item) (h : readBrackets item.tree cs = (e, rest)) :
    Begins .item (item.chars ++ cs) e rest := by
  induction hn : cs.length using Nat.strongRecOn generalizing cs item with
  | ind n ih =>
    unfold readBrackets at h
    split at h
    · rename_i cs
      have hshorter : cs.length < n := by
        rw [← hn]
        simp only [List.length_cons]
        omega
      -- What is read so far, with these brackets, is the item of the next round.
      obtain ⟨phrase, htree, hchars⟩ := ih cs.length hshorter (.array item) h rfl
      exact ⟨phrase, htree, by rw [hchars]; simp [Phrase.chars]⟩
    · obtain ⟨rfl, rfl⟩ := Prod.mk.inj h
      exact ⟨item, rfl, rfl⟩

theorem readNulls_sound (type : Phrase .type) (h : readNulls type.tree cs = (e, rest)) :
    Begins .type (type.chars ++ cs) e rest := by
  induction hn : cs.length using Nat.strongRecOn generalizing cs type with
  | ind n ih =>
    unfold readNulls at h
    split at h
    · rename_i cs
      have hshorter : cs.length < n := by
        rw [← hn]
        simp only [List.length_cons]
        omega
      obtain ⟨phrase, htree, hchars⟩ := ih cs.length hshorter (.orNull type) h rfl
      exact ⟨phrase, htree, by rw [hchars]; simp [Phrase.chars, nullArm]⟩
    · obtain ⟨rfl, rfl⟩ := Prod.mk.inj h
      exact ⟨type, rfl, rfl⟩

end Soundness

/-- The parser reads phrases only, however deep it may go. -/
theorem readType_sound (depth : Nat) : Sound (readType depth) := by
  induction depth with
  | zero =>
    intro cs e rest h
    cases h
  | succ depth ih =>
    intro cs e rest h
    simp only [readType, readItem, Option.map_eq_some_iff] at h
    obtain ⟨⟨e₁, cs₁⟩, ⟨⟨e₂, cs₂⟩, hatom, hitem⟩, htype⟩ := h
    obtain ⟨atom, rfl, hatomChars⟩ := readAtom_sound ih hatom
    obtain ⟨item, rfl, hitemChars⟩ := readBrackets_sound (.atom atom) hitem
    obtain ⟨phrase, htree, hchars⟩ := readNulls_sound (.item item) htype
    refine ⟨phrase, htree, ?_⟩
    calc phrase.chars ++ rest = item.chars ++ cs₁ := hchars
      _ = atom.chars ++ cs₂ := hitemChars
      _ = cs := hatomChars

/-- **The grammar is unambiguous.** The parser reads a text exactly if the grammar derives it, and then
as the tree of every derivation. -/
theorem parse?_eq_some_iff {text : String} {e : Expr} :
    parse? text = some e ↔ Derives text e := by
  constructor
  · intro h
    unfold parse? at h
    split at h
    · rename_i e' hread
      obtain rfl := Option.some.inj h
      obtain ⟨phrase, htree, hchars⟩ := readType_sound _ _ _ _ hread
      exact ⟨phrase, by rw [← hchars, List.append_nil], htree⟩
    · cases h
  · exact parse?_of_derives

end Grammar

end TypeProjection
