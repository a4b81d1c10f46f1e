import FrameGraph.Proofs.Text.Declarations

/-! # Parameters with builtin values

In a parameter list `@builtin(value)` and the word before the next colon give a builtin value to a parameter; comments
and blanks may stand between all of these. The search by characters sees the declarations that are written without
gaps but for blanks. If all declarations of a value are written so, the search finds the first of them, and renaming
renames their values and names.
-/

namespace FrameGraph

open Text

namespace Text

/-- The row without comments and blanks. -/
def codeOf (row : List Token) : List Token := row.filter (!·.isSpace)

/-- What follows the closing bracket of `builtin(value)` at the start; a comma may stand in front of the bracket. -/
def builtinAttribute? (value : List Char) (code : List Token) : Option (List Token) := do
  let code ← afterWord? builtinWord code
  let code ← afterChar? '(' code
  let code ← afterWord? value code
  (afterChar? ')' code).or ((afterChar? ',' code).bind (afterChar? ')'))

/-- The word before the first colon. -/
def colonName? : List Token → Option (List Char)
  | [] => none
  | .word name :: .char ':' :: _ => some name
  | .char ':' :: _ => none
  | _ :: code => colonName? code

/-- The names of the parameters that have the builtin value, in order. -/
def builtinNames (value : List Char) : List Token → List (Option (List Char))
  | [] => []
  | .char '@' :: row =>
    ((builtinAttribute? value (codeOf row)).map colonName?).toList ++ builtinNames value row
  | _ :: row => builtinNames value row

variable {value name : List Char} {row : List Token}

theorem codeOf_append (a b : List Token) : codeOf (a ++ b) = codeOf a ++ codeOf b := List.filter_append ..

theorem codeOf_space {token : Token} (space : token.isSpace = true) (row : List Token) :
    codeOf (token :: row) = codeOf row := List.filter_cons_of_neg (by simp [space])

theorem codeOf_dark {token : Token} (dark : token.isSpace = false) (row : List Token) :
    codeOf (token :: row) = token :: codeOf row := List.filter_cons_of_pos (by simp [dark])

theorem codeOf_spaces {row : List Token} (spaces : ∀ token ∈ row, token.isSpace = true) : codeOf row = [] :=
  List.filter_eq_nil_iff.mpr fun token member => by simp [spaces token member]

theorem isSpace_of_isBlank {token : Token} (blank : token.isBlank = true) : token.isSpace = true := by
  cases token with
  | comment text => rfl
  | word text => cases blank
  | char c => exact blank

theorem builtinNames_at (value : List Char) (row : List Token) : builtinNames value (.char '@' :: row) =
    ((builtinAttribute? value (codeOf row)).map colonName?).toList ++ builtinNames value row := rfl

theorem builtinNames_other {token : Token} (other : token ≠ .char '@') (row : List Token) :
    builtinNames value (token :: row) = builtinNames value row :=
  builtinNames.eq_3 value token row fun same => other same

/-- Without an `@` nothing is declared. -/
theorem builtinNames_append {front : List Token} (none : .char '@' ∉ front) (row : List Token) :
    builtinNames value (front ++ row) = builtinNames value row := by
  induction front with
  | nil => rfl
  | cons token front ih =>
    rw [List.mem_cons, not_or] at none
    rw [List.cons_append, builtinNames_other (Ne.symm none.1), ih none.2]

/-! ## Declarations without gaps -/

/-- Behind an `@`: the value in its brackets and a name before a colon, with nothing but blanks around the value and
before the name. -/
def Tight (value name : List Char) (row : List Token) : Prop :=
  ∃ a b c rest, row = .word builtinWord :: .char '(' :: (a ++ .word value :: (b ++ .char ')' :: (c ++ .word name :: rest))) ∧
    (∀ token ∈ a ++ b ++ c, token.isBlank = true) ∧ (codeOf rest).head? = some (.char ':')

/-- Every declaration of the value is written without gaps but for blanks. -/
def Plain (value : List Char) (row : List Token) : Prop :=
  ∀ front back, row = front ++ .char '@' :: back → (builtinAttribute? value (codeOf back)).isSome →
    ∃ name, Tight value name back

theorem Plain.tail {token : Token} (plain : Plain value (token :: row)) : Plain value row :=
  fun front back split => plain (token :: front) back (by rw [split]; rfl)

theorem dropWhile_blanks {a row : List Token} {token : Token} (blanks : ∀ token ∈ a, token.isBlank = true)
    (dark : token.isBlank = false) : (a ++ token :: row).dropWhile Token.isBlank = token :: row := by
  rw [List.dropWhile_append_of_pos blanks, List.dropWhile_cons_of_neg (by simp [dark])]

theorem codeOf_blanks {a : List Token} (blanks : ∀ token ∈ a, token.isBlank = true) (row : List Token) :
    codeOf (a ++ row) = codeOf row := by
  rw [codeOf_append, codeOf_spaces fun token member => isSpace_of_isBlank (blanks token member), List.nil_append]

theorem Tight.codeOf_eq (tight : Tight value name row) : ∃ more, codeOf row =
    .word builtinWord :: .char '(' :: .word value :: .char ')' :: .word name :: .char ':' :: more := by
  obtain ⟨a, b, c, rest, rfl, blanks, colon⟩ := tight
  rw [List.forall_mem_append, List.forall_mem_append] at blanks
  obtain ⟨more, code⟩ : ∃ more, codeOf rest = .char ':' :: more := by
    cases split : codeOf rest with
    | nil => simp [split] at colon
    | cons token more => exact ⟨more, by simpa [split] using colon⟩
  refine ⟨more, ?_⟩
  rw [codeOf_dark rfl, codeOf_dark (by decide), codeOf_blanks blanks.1.1, codeOf_dark rfl, codeOf_blanks blanks.1.2,
    codeOf_dark (by decide), codeOf_blanks blanks.2, codeOf_dark rfl, code]

/-- A declaration without gaps declares the name. -/
theorem Tight.builtinAttribute?_eq (tight : Tight value name row) :
    (builtinAttribute? value (codeOf row)).map colonName? = some (some name) := by
  obtain ⟨more, code⟩ := tight.codeOf_eq
  rw [code]
  simp [builtinAttribute?, afterWord?, afterChar?, colonName?]

/-- A declaration without gaps is found. -/
theorem Tight.markRest?_eq (tight : Tight value name row) (legible : Legible [] row) :
    ∃ after, markRest? Token.isBlank value (.char '@' :: row) = some after ∧
      nameAhead? Token.isBlank after = some (String.ofList name) := by
  obtain ⟨a, b, c, rest, rfl, blanks, -⟩ := tight
  rw [List.forall_mem_append, List.forall_mem_append] at blanks
  refine ⟨c ++ .word name :: rest, ?_, ?_⟩
  · have first : (Token.word value).isBlank = false := rfl
    have second : (Token.char ')').isBlank = false := rfl
    simp [markRest?, valueRest?, afterWord?, afterChar?, dropWhile_blanks blanks.1.1 first,
      dropWhile_blanks blanks.1.2 second]
  · have behind : Legible [] (.word name :: rest) := legible.suffix
      ⟨.word builtinWord :: .char '(' :: (a ++ .word value :: (b ++ .char ')' :: c)), by simp⟩
    obtain ⟨identifier, stop⟩ := endsAt_word.mp behind.1
    rw [List.append_nil] at stop
    have letters := (span_append (fun d => isWordChar_of_mem identifier) stop).1
    rw [nameAhead?, dropWhile_blanks blanks.2 rfl, render_cons, Token.chars, letters]
    simp [ne_nil_of_isIdentifier identifier]

theorem codeOf_dropWhile (row : List Token) : codeOf (row.dropWhile Token.isBlank) = codeOf row := by
  induction row with
  | nil => rfl
  | cons token row ih =>
    cases blank : token.isBlank with
    | true => rw [List.dropWhile_cons_of_pos blank, ih, codeOf_space (isSpace_of_isBlank blank)]
    | false => rw [List.dropWhile_cons_of_neg (by simp [blank])]

/-- What is found is a declaration. -/
theorem isSome_of_markRest? {after : List Token} (found : markRest? Token.isBlank value (.char '@' :: row) = some after) :
    (builtinAttribute? value (codeOf row)).isSome := by
  simp only [markRest?, valueRest?, Option.bind_eq_bind, Option.bind_eq_some_iff] at found
  obtain ⟨_, mark, _, word, inner, opened, middle, named, closed⟩ := found
  cases afterChar?_eq_some.mp mark
  obtain rfl := afterWord?_eq_some.mp word
  obtain rfl := afterChar?_eq_some.mp opened
  have innerCode : codeOf inner = .word value :: codeOf middle := by
    rw [← codeOf_dropWhile, afterWord?_eq_some.mp named, codeOf_dark rfl]
  have middleCode : codeOf middle = .char ')' :: codeOf after := by
    rw [← codeOf_dropWhile, afterChar?_eq_some.mp closed, codeOf_dark (by decide)]
  rw [codeOf_dark rfl, codeOf_dark (by decide), innerCode, middleCode]
  simp [builtinAttribute?, afterWord?, afterChar?]

/-- Each `@` of the row stands in front of a declaration without gaps, or of none. -/
theorem Plain.none_or_tight (plain : Plain value (.char '@' :: row)) :
    builtinAttribute? value (codeOf row) = none ∨ ∃ name, Tight value name row := by
  cases declared : builtinAttribute? value (codeOf row) with
  | none => exact .inl rfl
  | some after => exact .inr (plain [] row rfl (Option.isSome_of_eq_some declared))

theorem builtinNames_undeclared (undeclared : builtinAttribute? value (codeOf row) = none) :
    builtinNames value (.char '@' :: row) = builtinNames value row := by
  rw [builtinNames_at, undeclared]
  rfl

theorem Tight.builtinNames_eq (tight : Tight value name row) :
    builtinNames value (.char '@' :: row) = some name :: builtinNames value row := by
  rw [builtinNames_at, tight.builtinAttribute?_eq]
  rfl

/-- Where all declarations of the value are written without gaps, the first one is found. -/
theorem declaredIn?_plain {value : String} (legible : Legible [] row) (plain : Plain value.toList row) :
    declaredIn? Token.isBlank value row = ((builtinNames value.toList row).head?.join).map String.ofList := by
  induction row with
  | nil => rfl
  | cons token row ih =>
    have later := ih legible.2 plain.tail
    rw [declaredIn?] at later ⊢
    by_cases other : token = .char '@'
    case neg =>
      rw [firstMark?, markRest?_other other, builtinNames_other other, ← later]
      rfl
    subst other
    rw [firstMark?]
    rcases plain.none_or_tight with undeclared | ⟨name, tight⟩
    · have none : markRest? Token.isBlank value.toList (.char '@' :: row) = none := by
        by_contra some
        obtain ⟨after, found⟩ := Option.ne_none_iff_exists'.mp some
        have found := isSome_of_markRest? found
        rw [undeclared] at found
        cases found
      rw [none, builtinNames_undeclared undeclared]
      exact later
    · obtain ⟨after, found, ahead⟩ := tight.markRest?_eq legible.2
      rw [found, tight.builtinNames_eq]
      exact ahead

/-- The value is declared at most once and without gaps, and no comment has the start of a declaration in it. -/
structure Clear (value : List Char) (row : List Token) : Prop where
  unquoted : Unquoted row
  plain : Plain value row
  once : (builtinNames value row).length ≤ 1

theorem Plain.isSome_of_mem (plain : Plain value row) : ∀ name ∈ builtinNames value row, name.isSome := by
  induction row with
  | nil => exact List.forall_mem_nil _
  | cons token row ih =>
    have later := ih plain.tail
    by_cases other : token = .char '@'
    case neg => rwa [builtinNames_other other]
    subst other
    rcases plain.none_or_tight with undeclared | ⟨name, tight⟩
    · rwa [builtinNames_undeclared undeclared]
    · rw [tight.builtinNames_eq]
      exact List.forall_mem_cons.mpr ⟨rfl, later⟩

/-- The declaration of a value is found, and nothing else is. -/
theorem Clear.builtinNames_eq {value : String} (clear : Clear value.toList row)
    (identifier : isIdentifier value.toList = true) (legible : Legible [] row) :
    builtinNames value.toList row = ((declaredBuiltin? (render row) value).map fun name => some name.toList).toList := by
  rw [declaredBuiltin?_render identifier legible clear.unquoted, declaredIn?_plain legible clear.plain]
  have once := clear.once
  have named := clear.plain.isSome_of_mem
  match all : builtinNames value.toList row with
  | [] => rfl
  | [name] =>
    rw [all, List.forall_mem_singleton] at named
    obtain ⟨name, rfl⟩ := Option.isSome_iff_exists.mp named
    simp
  | first :: second :: rest =>
    rw [all] at once
    simp at once

/-! ## Renamed declarations -/

/-- No other word gets this name. -/
def Renames.Avoids (renames : Renames) (name : List Char) : Prop := ∀ word, renames.apply word = name → word = name

theorem Context.isFree_iff {context : Context} :
    context.isFree = true ↔ context.digit = false ∧ context.isMarked = false := by
  simp [isFree, isMarked, bne, and_assoc]

theorem Context.isFree_after_blank {context : Context} (free : context.isFree = true) {token : Token}
    (blank : token.isBlank = true) : (context.after token).isFree = true := by
  cases token with
  | word text => cases blank
  | comment text => cases blank
  | char c =>
    have blank : Text.isBlank c = true := blank
    rw [isFree_iff] at free ⊢
    constructor
    · cases digit : c.isDigit with
      | false => exact digit
      | true =>
        have word : isWordChar c = true := by simp [isWordChar, Char.isAlphanum, digit]
        rw [isBlank_of_isWordChar word] at blank
        cases blank
    · rw [after_isMarked]
      split
      · have plain : c ≠ '.' ∧ c ≠ '@' := by
          constructor <;> (rintro rfl; revert blank; decide)
        simp [Token.marks, Token.lastVisible, Token.chars, plain]
      · exact free.2

theorem Context.isFree_after_blanks {context : Context} (free : context.isFree = true) {a : List Token}
    (blanks : ∀ token ∈ a, token.isBlank = true) : (a.foldl Context.after context).isFree = true := by
  induction a generalizing context with
  | nil => exact free
  | cons token a ih =>
    rw [List.forall_mem_cons] at blanks
    exact ih (isFree_after_blank free blanks.1) blanks.2

variable {renames : Renames} {context : Context}

theorem renamedRow_append (renames : Renames) (context : Context) (a b : List Token) :
    renamedRow renames context (a ++ b) =
      renamedRow renames context a ++ renamedRow renames (a.foldl Context.after context) b := by
  induction a generalizing context with
  | nil => rfl
  | cons token a ih => rw [List.cons_append, renamedRow, ih, renamedRow, List.foldl_cons, List.cons_append]

/-- Only the names of the free words count. -/
theorem renamedRow_congr {others : Renames}
    (same : ∀ word ∈ freeWordsFrom context row, renames.apply word = others.apply word) :
    renamedRow renames context row = renamedRow others context row := by
  induction row generalizing context with
  | nil => rfl
  | cons token row ih =>
    cases token with
    | comment text => exact congrArg₂ _ (by simp [Token.renamed]) (ih same)
    | char c => exact congrArg₂ _ (by simp [Token.renamed]) (ih same)
    | word text =>
      cases free : context.isFree with
      | false =>
        rw [freeWordsFrom, if_neg (by simp [free])] at same
        rw [renamedRow, renamedRow, free, if_neg Bool.false_ne_true, if_neg Bool.false_ne_true, ih same]
      | true =>
        rw [freeWordsFrom, if_pos free, List.forall_mem_cons] at same
        rw [renamedRow, renamedRow, free, if_pos rfl, if_pos rfl, ih same.2, Token.renamed, Token.renamed, same.1]

theorem renamedRow_blanks {a : List Token} (blanks : ∀ token ∈ a, token.isBlank = true) :
    renamedRow renames context a = a := by
  induction a generalizing context with
  | nil => rfl
  | cons token a ih =>
    rw [List.forall_mem_cons] at blanks
    rw [renamedRow, ih blanks.2]
    cases token with
    | word text => cases blanks.1
    | comment text => cases blanks.1
    | char c => simp [Token.renamed]

/-- The code of a renamed row is the code of the row, token by token, where words may have their new names. -/
theorem codeOf_renamedRow (renames : Renames) (context : Context) (row : List Token) :
    List.Forall₂ (fun new old => new = old ∨ new = old.renamed renames) (codeOf (renamedRow renames context row))
      (codeOf row) := by
  induction row generalizing context with
  | nil => exact .nil
  | cons token row ih =>
    have same : (if context.isFree then token.renamed renames else token).isSpace = token.isSpace := by
      split
      · cases token <;> rfl
      · rfl
    have either : (if context.isFree then token.renamed renames else token) = token ∨
        (if context.isFree then token.renamed renames else token) = token.renamed renames := by
      split
      · exact .inr rfl
      · exact .inl rfl
    rw [renamedRow]
    cases space : token.isSpace with
    | true =>
      rw [codeOf_space (same.trans space), codeOf_space space]
      exact ih _
    | false =>
      rw [codeOf_dark (same.trans space), codeOf_dark space]
      exact .cons either (ih _)

/-- A declaration of the value starts with the attribute in these tokens. -/
theorem isSome_builtinAttribute? {code : List Token} : (builtinAttribute? value code).isSome ↔
    ∃ more, code = .word builtinWord :: .char '(' :: .word value :: more ∧
      (more.head? = some (.char ')') ∨ ∃ after, more = .char ',' :: .char ')' :: after) := by
  constructor
  · intro declared
    obtain ⟨after, found⟩ := Option.isSome_iff_exists.mp declared
    simp only [builtinAttribute?, Option.bind_eq_bind, Option.bind_eq_some_iff] at found
    obtain ⟨_, word, _, opened, more, named, closed⟩ := found
    obtain rfl := afterWord?_eq_some.mp word
    obtain rfl := afterChar?_eq_some.mp opened
    obtain rfl := afterWord?_eq_some.mp named
    refine ⟨more, rfl, ?_⟩
    rcases Option.or_eq_some_iff.mp closed with here | ⟨-, behind⟩
    · rw [afterChar?_eq_some.mp here]
      exact .inl rfl
    · obtain ⟨_, comma, closed⟩ := Option.bind_eq_some_iff.mp behind
      obtain rfl := afterChar?_eq_some.mp closed
      exact .inr ⟨_, afterChar?_eq_some.mp comma⟩
  · rintro ⟨more, rfl, ends⟩
    have closes : ((afterChar? ')' more).or ((afterChar? ',' more).bind (afterChar? ')'))).isSome := by
      rcases ends with closed | ⟨after, rfl⟩
      · obtain ⟨after, rfl⟩ := List.head?_eq_some_iff.mp closed
        simp [afterChar?]
      · simp [afterChar?]
    simpa [builtinAttribute?, afterWord?, afterChar?] using closes

/-- Renaming makes no characters. -/
theorem eq_char_of_renamed {c : Char} {old : Token} (same : .char c = old ∨ .char c = old.renamed renames) :
    old = .char c := by
  rcases same with rfl | same
  · rfl
  · cases old with
    | word text => cases same
    | comment text => cases same
    | char d => exact same.symm

theorem eq_word_of_renamed {name : List Char} (avoids : renames.Avoids name) {old : Token}
    (same : .word name = old ∨ .word name = old.renamed renames) : old = .word name := by
  rcases same with rfl | same
  · rfl
  · cases old with
    | word text => exact congrArg _ (avoids text (Token.word.inj same).symm)
    | comment text => cases same
    | char c => cases same

/-- Renaming makes no declaration of the value if no other word gets its name. -/
theorem isSome_of_renamed (keeps : renames.Avoids builtinWord) (avoids : renames.Avoids value)
    {new old : List Token} (same : List.Forall₂ (fun new old => new = old ∨ new = old.renamed renames) new old)
    (declared : (builtinAttribute? value new).isSome) : (builtinAttribute? value old).isSome := by
  obtain ⟨more, rfl, ends⟩ := isSome_builtinAttribute?.mp declared
  obtain _ | ⟨first, _ | ⟨second, _ | ⟨third, same⟩⟩⟩ := same
  obtain rfl := eq_word_of_renamed keeps first
  obtain rfl := eq_char_of_renamed second
  obtain rfl := eq_word_of_renamed avoids third
  refine isSome_builtinAttribute?.mpr ⟨_, rfl, ?_⟩
  rcases ends with closed | ⟨after, rfl⟩
  · obtain ⟨after, rfl⟩ := List.head?_eq_some_iff.mp closed
    obtain _ | ⟨fourth, -⟩ := same
    exact .inl (congrArg some (eq_char_of_renamed fourth))
  · obtain _ | ⟨fourth, _ | ⟨fifth, -⟩⟩ := same
    exact .inr ⟨_, by rw [eq_char_of_renamed fourth, eq_char_of_renamed fifth]⟩

theorem renamedRow_char (renames : Renames) (context : Context) (c : Char) (row : List Token) :
    renamedRow renames context (.char c :: row) = .char c :: renamedRow renames (context.after (.char c)) row := by
  simp [renamedRow, Token.renamed]

/-- Blanks aside, a word right behind a character that is no mark gets its new name. -/
theorem renamedRow_ahead {c : Char} (frees : (context.after (.char c)).isFree = true) {a : List Token}
    (blanks : ∀ token ∈ a, token.isBlank = true) (text : List Char) (row : List Token) :
    ∃ later, renamedRow renames context (.char c :: (a ++ .word text :: row)) =
      .char c :: (a ++ .word (renames.apply text) :: renamedRow renames later row) := by
  refine ⟨(a.foldl Context.after (context.after (.char c))).after (.word text), ?_⟩
  rw [renamedRow_char, renamedRow_append, renamedRow_blanks blanks, renamedRow,
    if_pos (Context.isFree_after_blanks frees blanks), Token.renamed]

/-- Behind its `@` a declaration keeps its attribute; its value and its name get their new names. -/
theorem Tight.renamedRow (tight : Tight value name row) (bound : context.isFree = false) :
    Tight (renames.apply value) (renames.apply name) (renamedRow renames context row) := by
  obtain ⟨a, b, c, rest, rfl, blanks, colon⟩ := tight
  have each := blanks
  rw [List.forall_mem_append, List.forall_mem_append] at each
  obtain ⟨⟨first, second⟩, third⟩ := each
  have opened (context : Context) : (context.after (.char '(')).isFree = true := rfl
  have closed (context : Context) : (context.after (.char ')')).isFree = true := rfl
  obtain ⟨inner, valued⟩ := renamedRow_ahead (opened (context.after (.word builtinWord))) first value
    (b ++ .char ')' :: (c ++ .word name :: rest))
  obtain ⟨later, named⟩ := renamedRow_ahead (closed (b.foldl Context.after inner)) third name rest
  refine ⟨a, b, c, Text.renamedRow renames later rest, ?_, blanks, ?_⟩
  · rw [Text.renamedRow, if_neg (by simp [bound]), valued, renamedRow_append, renamedRow_blanks second, named]
  · obtain ⟨more, code⟩ := List.head?_eq_some_iff.mp colon
    have same := codeOf_renamedRow renames later rest
    rw [code] at same
    obtain ⟨_, _, colon, -, split⟩ := List.forall₂_cons_right_iff.mp same
    rw [split, List.head?_cons]
    rcases colon with rfl | rfl <;> rfl

/-- Another value is not declared there. -/
theorem Tight.builtinAttribute?_other {other : List Char} (tight : Tight other name row) (differs : other ≠ value) :
    builtinAttribute? value (codeOf row) = none := by
  obtain ⟨more, code⟩ := tight.codeOf_eq
  rw [code]
  simp [builtinAttribute?, afterWord?, afterChar?, differs]

/-- Where all declarations of the value are written without gaps, renaming gives new names to the parameters, unless
the value itself is given another name. -/
theorem builtinNames_renamedRow (plain : Plain value row) (keeps : renames.Avoids builtinWord)
    (avoids : renames.Avoids value) : builtinNames value (renamedRow renames context row) =
      if renames.apply value = value then (builtinNames value row).map (Option.map renames.apply) else [] := by
  induction row generalizing context with
  | nil => simp [renamedRow, builtinNames]
  | cons token row ih =>
    have later (context : Context) : builtinNames value (renamedRow renames context row) = _ := ih plain.tail
    by_cases other : token = .char '@'
    case neg =>
      have other' : (if context.isFree then token.renamed renames else token) ≠ .char '@' := by
        intro same
        refine other (@eq_char_of_renamed renames _ _ ?_)
        rw [← same]
        split
        · exact .inr rfl
        · exact .inl rfl
      rw [renamedRow, builtinNames_other other', builtinNames_other other, later]
    subst other
    have bound : (context.after (.char '@')).isFree = false := rfl
    rw [renamedRow_char]
    rcases plain.none_or_tight with undeclared | ⟨name, tight⟩
    · have none : builtinAttribute? value (codeOf (renamedRow renames (context.after (.char '@')) row)) = none := by
        by_contra some
        have found := isSome_of_renamed keeps avoids (codeOf_renamedRow renames _ row)
          (Option.isSome_iff_ne_none.mpr some)
        rw [undeclared] at found
        cases found
      rw [builtinNames_undeclared none, builtinNames_undeclared undeclared, later]
    · have renamed : Tight (renames.apply value) (renames.apply name) (renamedRow renames _ row) := tight.renamedRow bound
      rw [tight.builtinNames_eq]
      by_cases kept : renames.apply value = value
      · rw [kept] at renamed
        rw [renamed.builtinNames_eq, later, if_pos kept, if_pos kept]
        rfl
      · rw [builtinNames_undeclared (renamed.builtinAttribute?_other kept), later, if_neg kept, if_neg kept]

/-! ## Added declarations -/

/-- A row without comments is read back in front of a text that continues no word and starts no comment. -/
theorem legible_before {front : List Token} (code : ∀ token ∈ front, token.isComment = false)
    (legible : Legible [] front) {rest : List Char}
    (stop : ∀ c, rest.head? = some c → isWordChar c = false ∧ c ≠ '/' ∧ c ≠ '*') : Legible rest front := by
  induction front with
  | nil => trivial
  | cons token front ih =>
    rw [List.forall_mem_cons] at code
    refine ⟨?_, ih code.2 legible.2⟩
    have ends := legible.1
    rw [List.append_nil] at ends
    cases front with
    | cons next front =>
      obtain ⟨c, more, chars, -⟩ := legible.2.1
      exact ends.follow (.inl (head_chars (by simp [chars]) rest))
    | nil =>
      cases token with
      | comment text => cases code.1
      | word text => exact endsAt_word.mpr ⟨(endsAt_word.mp ends).1, fun c head => (stop c head).1⟩
      | char c => exact endsAt_char.mpr ⟨(endsAt_char.mp ends).1, fun _ =>
          ⟨fun head => (stop _ head).2.1 rfl, fun head => (stop _ head).2.2 rfl⟩⟩

/-- The tokens of parameters with a comma and a space between them, in front of a row. -/
def parameterRow : List String → List Token → List Token
  | [], row => row
  | [parameter], row => tokens parameter.toList ++ row
  | parameter :: next :: rest, row => tokens parameter.toList ++ .char ',' :: .char ' ' :: parameterRow (next :: rest) row

theorem render_parameterRow (parameters : List String) (row : List Token) :
    render (parameterRow parameters row) = (String.intercalate ", " parameters).toList ++ render row := by
  fun_induction parameterRow parameters row with
  | case1 row => simp
  | case2 row parameter => simp [render_append, render_tokens]
  | case3 row parameter next rest ih =>
    rw [render_append, render_tokens, render_cons, render_cons, ih, String.intercalate_cons_cons]
    simp [Token.chars]

theorem legible_parameterRow {parameters : List String}
    (code : ∀ parameter ∈ parameters, ∀ token ∈ tokens parameter.toList, token.isComment = false)
    (legible : Legible [] row)
    (stop : parameters ≠ [] → ∀ c, (render row).head? = some c → isWordChar c = false ∧ c ≠ '/' ∧ c ≠ '*') :
    Legible [] (parameterRow parameters row) := by
  fun_induction parameterRow parameters row with
  | case1 row => exact legible
  | case2 row parameter =>
    rw [List.forall_mem_singleton] at code
    refine legible_append.mpr ⟨legible_before code (legible_tokens _) ?_, legible⟩
    rw [List.append_nil]
    exact stop (List.cons_ne_nil _ _)
  | case3 row parameter next rest ih =>
    rw [List.forall_mem_cons] at code
    have later := ih code.2 legible fun _ => stop (List.cons_ne_nil _ _)
    refine legible_append.mpr ⟨legible_before code.1 (legible_tokens _) ?_, endsAt_char.mpr ⟨rfl, by simp⟩,
      endsAt_char.mpr ⟨rfl, by simp⟩, later⟩
    rintro c ⟨⟩
    decide

end Text

/-- The tokens of an added parameter between its `@` and its type. -/
def Builtin.declarator (builtin : Builtin) : List Token :=
  [.word builtinWord, .char '(', .word builtin.value.toList, .char ')', .char ' ', .word builtin.ident.toList,
    .char ':', .char ' ']

variable {stage : Stage} {builtin : Builtin}

theorem Builtin.tokens_parameter (listed : builtin ∈ stage.builtins) :
    tokens builtin.parameter.toList = .char '@' :: (builtin.declarator ++ tokens builtin.type.toList) ∧
      ∀ token ∈ tokens builtin.type.toList, token ≠ .char '@' ∧ token.isComment = false := by
  have all : ∀ stage : Stage, ∀ builtin ∈ stage.builtins,
      tokens builtin.parameter.toList = .char '@' :: (builtin.declarator ++ tokens builtin.type.toList) ∧
        ∀ token ∈ tokens builtin.type.toList, token ≠ .char '@' ∧ token.isComment = false := by
    intro stage
    cases stage <;> decide +kernel
  exact all stage builtin listed

theorem Builtin.code_parameter (listed : builtin ∈ stage.builtins) :
    ∀ token ∈ tokens builtin.parameter.toList, token.isComment = false := by
  obtain ⟨split, type⟩ := tokens_parameter listed
  rw [split, List.forall_mem_cons, List.forall_mem_append]
  exact ⟨rfl, by simp [declarator, Token.isComment], fun token member => (type token member).2⟩

/-- An added parameter declares its builtin value. -/
theorem Builtin.builtinNames_parameter (listed : builtin ∈ stage.builtins) (value : List Char) (row : List Token) :
    builtinNames value (tokens builtin.parameter.toList ++ row) =
      (if builtin.value.toList = value then [some builtin.ident.toList] else []) ++ builtinNames value row := by
  obtain ⟨split, type⟩ := tokens_parameter listed
  have quiet : .char '@' ∉ builtin.declarator ++ tokens builtin.type.toList := by
    rw [List.mem_append, not_or]
    exact ⟨by simp [declarator], fun member => (type _ member).1 rfl⟩
  have space : (Token.char ' ').isSpace = true := rfl
  rw [split, List.cons_append, builtinNames_at, builtinNames_append quiet]
  congr 1
  simp only [declarator, List.cons_append, List.nil_append]
  rw [codeOf_dark rfl, codeOf_dark (by decide), codeOf_dark rfl, codeOf_dark (by decide), codeOf_space space,
    codeOf_dark rfl, codeOf_dark (by decide)]
  split
  · rename_i same
    simp [builtinAttribute?, afterWord?, afterChar?, colonName?, same]
  · rename_i other
    simp [builtinAttribute?, afterWord?, afterChar?, other]

/-- Added parameters declare their builtin values. -/
theorem builtinNames_parameterRow {builtins : List Builtin} (listed : ∀ builtin ∈ builtins, builtin ∈ stage.builtins)
    (value : List Char) (row : List Token) :
    builtinNames value (parameterRow (builtins.map Builtin.parameter) row) =
      (builtins.filter (·.value.toList = value)).map (fun builtin => some builtin.ident.toList) ++
        builtinNames value row := by
  have one (builtin : Builtin) (rest : List Builtin) :
      ((builtin :: rest).filter (·.value.toList = value)).map (fun builtin => some builtin.ident.toList) =
        (if builtin.value.toList = value then [some builtin.ident.toList] else []) ++
          (rest.filter (·.value.toList = value)).map fun builtin => some builtin.ident.toList := by
    rw [List.filter_cons]
    split <;> simp_all
  induction builtins with
  | nil => rfl
  | cons builtin rest ih =>
    rw [List.forall_mem_cons] at listed
    have later := ih listed.2
    rw [one, List.append_assoc]
    cases rest with
    | nil => exact builtin.builtinNames_parameter listed.1 value row
    | cons next rest =>
      rw [List.map_cons, List.map_cons, parameterRow, builtin.builtinNames_parameter listed.1,
        builtinNames_other (by decide), builtinNames_other (by decide), ← later]
      rfl

theorem EntryPoint.tokens_patchedParams {entry : EntryPoint} {patch : Patch} {builtins : List Builtin}
    (listed : ∀ builtin ∈ builtins, builtin ∈ stage.builtins) (added : patch.parameters = builtins.map Builtin.parameter)
    (legible : Legible [] entry.params) {renames : Renames} (spelled : renames.Spelled)
    (same : renamedRow patch.identifiers .start entry.params = renamedRow renames .start entry.params) :
    ∃ joint, (∀ token ∈ joint, token = .char ',' ∨ token = .char ' ') ∧ Text.tokens (entry.patchedParams patch) =
      parameterRow patch.parameters (joint ++ renamedRow renames .start entry.params) := by
  have old := legible_renamedRow spelled .start legible
  have code : ∀ parameter ∈ patch.parameters, ∀ token ∈ Text.tokens parameter.toList, token.isComment = false := by
    intro parameter member
    obtain ⟨builtin, builtinMember, rfl⟩ := List.mem_map.mp (added ▸ member)
    exact builtin.code_parameter (listed builtin builtinMember)
  -- the whole row is read back, whatever stands between the new parameters and the old ones
  have read {joint : List Token} (text : entry.patchedParams patch =
      (String.intercalate ", " patch.parameters).toList ++ render joint ++ rename patch.identifiers entry.params)
      (legible : Legible [] (joint ++ renamedRow renames .start entry.params))
      (stop : patch.parameters ≠ [] → ∀ c, (render (joint ++ renamedRow renames .start entry.params)).head? = some c →
        isWordChar c = false ∧ c ≠ '/' ∧ c ≠ '*') :
      Text.tokens (entry.patchedParams patch) = parameterRow patch.parameters (joint ++ renamedRow renames .start entry.params) := by
    rw [text, rename, renameFrom_eq_render, same, List.append_assoc, ← render_append, ← render_parameterRow]
    exact (legible_parameterRow code legible stop).tokens_render
  by_cases short : (patch.parameters.isEmpty || (trim (render entry.params)).isEmpty) = true
  · refine ⟨[], List.forall_mem_nil _, read (by rw [patchedParams, if_pos short]; rfl) old fun some c head => ?_⟩
    -- the old parameters are blank
    have blank : trim (render entry.params) = [] := by simpa [some] using short
    have blank := (isBlank_renamedRow spelled .start legible).mpr (trim_eq_nil_iff.mp blank) c (List.mem_of_head? head)
    refine ⟨?_, ?_, ?_⟩
    · by_contra word
      rw [isBlank_of_isWordChar (eq_true_of_ne_false word)] at blank
      cases blank
    · rintro rfl
      cases blank
    · rintro rfl
      cases blank
  · refine ⟨[.char ',', .char ' '], by decide, read (by rw [patchedParams, if_neg short]; rfl) ?_ fun _ c head => ?_⟩
    · exact ⟨endsAt_char.mpr ⟨rfl, by simp⟩, endsAt_char.mpr ⟨rfl, by simp⟩, old⟩
    · cases head
      decide

end FrameGraph
