import FrameGraph.Proofs.Text.Blanks
import FrameGraph.Proofs.Text.Mentions
import FrameGraph.Proofs.Text.Refinding

/-! # The search for a declared builtin value

The search for the parameter that has a builtin value knows no comments. It finds the declarations whose brackets have
nothing but blanks and the value in them, and takes the word that is next, blanks aside, for the name. Without comments
it also finds those that have comments there. What a comment quotes is found like a declaration of the code; where no
comment does, the search can be followed token by token.
-/

namespace FrameGraph

open Text

namespace Text

/-! ## The search by tokens -/

/-- A blank character. -/
def Token.isBlank : Token → Bool
  | .char c => Text.isBlank c
  | _ => false

/-- The row behind a word at its start. -/
def afterWord? (word : List Char) : List Token → Option (List Token)
  | .word text :: row => if text = word then some row else none
  | _ => none

/-- The row behind a character at its start. -/
def afterChar? (c : Char) : List Token → Option (List Token)
  | .char d :: row => if d = c then some row else none
  | _ => none

/-- The row behind the value and the closing bracket; what counts as space may stand around the value. -/
def valueRest? (space : Token → Bool) (value : List Char) (row : List Token) : Option (List Token) := do
  let row ← afterWord? value (row.dropWhile space)
  afterChar? ')' (row.dropWhile space)

/-- The row behind a declaration of the value at its start. -/
def markRest? (space : Token → Bool) (value : List Char) (row : List Token) : Option (List Token) := do
  let row ← afterChar? '@' row
  let row ← afterWord? builtinWord row
  let row ← afterChar? '(' row
  valueRest? space value row

/-- The row behind the first declaration of the value. -/
def firstMark? (space : Token → Bool) (value : List Char) : List Token → Option (List Token)
  | [] => none
  | token :: row => (markRest? space value (token :: row)).or (firstMark? space value row)

/-- The word at the start of a row, space aside. -/
def nameAhead? (space : Token → Bool) (row : List Token) : Option String :=
  let name := (render (row.dropWhile space)).takeWhile isWordChar
  if name.isEmpty then none else some (String.ofList name)

/-- The name behind the first declaration of the value. -/
def declaredIn? (space : Token → Bool) (value : String) (row : List Token) : Option String :=
  (firstMark? space value.toList row).bind (nameAhead? space)

variable {value : List Char} {row : List Token}

theorem trimStart_word {c : Char} (word : isWordChar c = true) (text : List Char) : trimStart (c :: text) = c :: text :=
  trimStart_dark (isBlank_of_isWordChar word) text

theorem trimStart_render (legible : Legible [] row) : trimStart (render row) = render (row.dropWhile Token.isBlank) := by
  induction row with
  | nil => rfl
  | cons token row ih =>
    cases token with
    | word text =>
      obtain ⟨identifier, -⟩ := endsAt_word.mp legible.1
      cases text with
      | nil => cases identifier
      | cons c text => exact trimStart_word (isWordChar_of_isWordStart (isIdentifier_cons.mp identifier).1) _
    | comment text =>
      obtain ⟨body, rfl⟩ := comment_starts legible.1
      rfl
    | char c =>
      cases blank : Text.isBlank c with
      | true =>
        rw [List.dropWhile_cons_of_pos (by simpa [Token.isBlank] using blank), ← ih legible.2]
        exact trimStart_blank blank _
      | false =>
        rw [List.dropWhile_cons_of_neg (by simpa [Token.isBlank] using blank)]
        exact trimStart_dark blank _

theorem firstName?_render (legible : Legible [] row) : firstName? (render row) = nameAhead? Token.isBlank row := by
  rw [firstName?, trimStart_render legible, nameAhead?]

/-- Behind no opening bracket a needle starts with the text it is looked for in. -/
theorem trimmedFor_word {previous c : Char} (closed : previous ≠ '(') (word : isWordChar c = true) (text : List Char) :
    trimmedFor previous c text = text := by
  have other : c ≠ ')' := by
    rintro rfl
    cases word
  exact if_neg (by simp [closed, other])

/-- A word of the needle is met by the same letters, as many as there are. -/
theorem strip_run {word text rest : List Char} {previous c : Char} (words : ∀ c ∈ word, isWordChar c = true)
    (letters : ∀ c ∈ text, isWordChar c = true) (closed : previous ≠ '(') (stop : isWordChar c = false)
    (next : ∀ c, rest.head? = some c → isWordChar c = false) (needle : List Char) :
    strip previous (word ++ c :: needle) (text ++ rest) =
      if text = word then strip (word.getLastD previous) (c :: needle) rest else none := by
  induction word generalizing previous text with
  | nil =>
    cases text with
    | nil => rfl
    | cons d text =>
      have inside := letters d (.head _)
      have first : trimmedFor previous c (d :: (text ++ rest)) = d :: (text ++ rest) := by
        rw [trimmedFor, trimStart_word inside, ite_self]
      have other : d ≠ c := by
        rintro rfl
        rw [inside] at stop
        cases stop
      rw [List.nil_append, List.cons_append, strip_some first, if_neg other, if_neg (by simp)]
  | cons a word ih =>
    obtain ⟨letter, later⟩ := List.forall_mem_cons.mp words
    rw [List.cons_append]
    cases text with
    | nil =>
      rw [List.nil_append, if_neg (by simp)]
      cases rest with
      | nil => exact strip_none (trimmedFor_word closed letter _) _
      | cons d rest =>
        have other : d ≠ a := by
          rintro rfl
          rw [next _ rfl] at letter
          cases letter
        rw [strip_some (trimmedFor_word closed letter _), if_neg other]
    | cons d text =>
      rw [List.cons_append, strip_some (trimmedFor_word closed letter _)]
      by_cases same : d = a
      · subst same
        have opened : d ≠ '(' := by
          rintro rfl
          cases letter
        have last : (d :: word).getLastD previous = word.getLastD d := by cases word <;> rfl
        rw [if_pos rfl, ih later (fun c member => letters c (.tail _ member)) opened, last]
        simp
      · rw [if_neg same, if_neg (by simp [same])]

theorem afterWord?_eq_some {word : List Char} {after : List Token} :
    afterWord? word row = some after ↔ row = .word word :: after := by
  match row with
  | [] | .comment _ :: _ | .char _ :: _ => simp [afterWord?]
  | .word text :: row => simp [afterWord?]

theorem afterChar?_eq_some {c : Char} {after : List Token} :
    afterChar? c row = some after ↔ row = .char c :: after := by
  match row with
  | [] | .comment _ :: _ | .word _ :: _ => simp [afterChar?]
  | .char d :: row => simp [afterChar?]

/-- A declaration starts with `@`. -/
theorem markRest?_other {space : Token → Bool} {token : Token} (other : token ≠ .char '@') :
    markRest? space value (token :: row) = none := by
  cases first : afterChar? '@' (token :: row) with
  | none => rw [markRest?, first]; rfl
  | some after => exact absurd (List.cons.inj (afterChar?_eq_some.mp first)).1 other

/-- A word of the needle is met by the same word of the row. -/
theorem strip_word {word : List Char} (identifier : isIdentifier word = true) {previous c : Char}
    (closed : previous ≠ '(') (stop : isWordChar c = false) (needle : List Char) (legible : Legible [] row) :
    strip previous (word ++ c :: needle) (render row) =
      (afterWord? word row).bind fun row => strip (word.getLastD previous) (c :: needle) (render row) := by
  obtain ⟨a, more, rfl⟩ := List.exists_cons_of_ne_nil (ne_nil_of_isIdentifier identifier)
  have start := (isIdentifier_cons.mp identifier).1
  have letter := isWordChar_of_isWordStart start
  have differs : ∀ {d : Char} {text : List Char}, isWordStart d = false →
      strip previous (a :: more ++ c :: needle) (d :: text) = none := by
    intro d text plain
    have other : d ≠ a := by
      rintro rfl
      rw [start] at plain
      cases plain
    rw [List.cons_append, strip_some (trimmedFor_word closed letter _), if_neg other]
  cases row with
  | nil => exact strip_none (trimmedFor_word closed letter _) _
  | cons token row =>
    cases token with
    | comment text =>
      obtain ⟨body, rfl⟩ := comment_starts legible.1
      exact differs rfl
    | char d => exact differs (endsAt_char.mp legible.1).1
    | word text =>
      obtain ⟨spelled, next⟩ := endsAt_word.mp legible.1
      rw [List.append_nil] at next
      have run := strip_run (fun c => isWordChar_of_mem identifier) (fun c => isWordChar_of_mem spelled) closed stop next needle
      rw [render_cons, Token.chars, run, afterWord?]
      split <;> rfl

theorem legible_dropWhile (space : Token → Bool) (legible : Legible [] row) : Legible [] (row.dropWhile space) := by
  rw [← List.takeWhile_append_dropWhile (p := space) (l := row)] at legible
  exact (legible_append.mp legible).2

/-- A bracket of the needle is met by one of the row. -/
theorem strip_bracket {previous c : Char} (plain : isWordStart c = false) (noSlash : c ≠ '/') {text : List Char}
    (trimmed : trimmedFor previous c text = render row) (needle : List Char) (legible : Legible [] row) :
    strip previous (c :: needle) text = (afterChar? c row).bind fun row => strip c needle (render row) := by
  cases row with
  | nil => exact strip_none trimmed _
  | cons token row =>
    cases token with
    | comment text =>
      obtain ⟨body, rfl⟩ := comment_starts legible.1
      exact (strip_some trimmed _).trans (if_neg noSlash.symm)
    | char d =>
      rw [afterChar?]
      refine (strip_some trimmed _).trans ?_
      split <;> rfl
    | word text =>
      obtain ⟨d, more, rfl⟩ := List.exists_cons_of_ne_nil (ne_nil_of_isIdentifier (endsAt_word.mp legible.1).1)
      have other : d ≠ c := by
        rintro rfl
        rw [(isIdentifier_cons.mp (endsAt_word.mp legible.1).1).1] at plain
        cases plain
      exact (strip_some trimmed _).trans (if_neg other)

/-- Behind the opening bracket the value is looked for, blanks aside, and then the closing bracket. -/
theorem strip_value (identifier : isIdentifier value = true) (legible : Legible [] row) :
    strip '(' (value ++ [')']) (render row) = (valueRest? Token.isBlank value row).map render := by
  have opened : strip '(' (value ++ [')']) (render row) = strip '@' (value ++ [')']) (trimStart (render row)) := by
    obtain ⟨c, more, rfl⟩ := List.exists_cons_of_ne_nil (ne_nil_of_isIdentifier identifier)
    have word := isWordChar_of_mem identifier (List.mem_cons_self ..)
    have trimmed : trimmedFor '(' c (render row) = trimStart (render row) := if_pos (.inl rfl)
    have same : trimmedFor '@' c (trimStart (render row)) = trimStart (render row) := trimmedFor_word (by decide) word _
    rw [List.cons_append, strip, strip, trimmed, same]
  have inner := legible_dropWhile Token.isBlank legible
  rw [opened, trimStart_render legible, strip_word identifier (by decide) rfl _ inner, valueRest?]
  cases found : afterWord? value (row.dropWhile Token.isBlank) with
  | none => rfl
  | some after =>
    have behind : Legible [] after := (afterWord?_eq_some.mp found ▸ inner).2
    have trimmed : trimmedFor (value.getLastD '@') ')' (render after) = render (after.dropWhile Token.isBlank) := by
      rw [trimmedFor, if_pos (.inr rfl), trimStart_render behind]
    exact (strip_bracket rfl (by decide) trimmed _ (legible_dropWhile _ behind)).trans Option.map_eq_bind.symm

theorem builtinRest?_render (identifier : isIdentifier value = true) (legible : Legible [] row) :
    builtinRest? value ('@' :: render row) = (markRest? Token.isBlank value (.char '@' :: row)).map render := by
  rw [builtinRest?, declaration, strip_word rfl (by decide) rfl _ legible, markRest?,
    show afterChar? '@' (.char '@' :: row) = some row from rfl]
  change _ = ((afterWord? builtinWord row).bind fun row => (afterChar? '(' row).bind (valueRest? Token.isBlank value)).map render
  cases found : afterWord? builtinWord row with
  | none => rfl
  | some after =>
    have behind : Legible [] after := (afterWord?_eq_some.mp found ▸ legible).2
    have trimmed : trimmedFor 'n' '(' (render after) = render after := if_neg (by decide)
    rw [Option.bind_some, Option.bind_some, show builtinWord.getLastD '@' = 'n' from rfl,
      strip_bracket rfl (by decide) trimmed _ behind]
    cases opened : afterChar? '(' after with
    | none => rfl
    | some inner => exact strip_value identifier (afterChar?_eq_some.mp opened ▸ behind).2

/-- How every declaration starts. -/
def markText : List Char := '@' :: (builtinWord ++ ['('])

/-- No comment of the row has the start of a declaration in it. -/
def Unquoted (row : List Token) : Prop := ∀ text, .comment text ∈ row → ¬markText <:+: text

theorem builtinRest?_starts {text after : List Char} (found : builtinRest? value ('@' :: text) = some after) :
    builtinWord ++ ['('] <+: text := by
  have stop : ∀ c, (text.dropWhile isWordChar).head? = some c → isWordChar c = false := fun c => head_dropWhile
  rw [builtinRest?, declaration, ← List.takeWhile_append_dropWhile (p := isWordChar) (l := text),
    strip_run isWordChar_of_builtinWord (fun c member => List.mem_takeWhile_imp member) (by decide) rfl stop] at found
  split at found
  · rename_i letters
    have whole : text = builtinWord ++ text.dropWhile isWordChar := by
      rw [← letters, List.takeWhile_append_dropWhile]
    cases behind : text.dropWhile isWordChar with
    | nil =>
      rw [behind] at found
      cases found
    | cons c rest =>
      have same : c = '(' := by
        by_contra other
        rw [behind] at found
        have first : trimmedFor (builtinWord.getLastD '@') '(' (c :: rest) = c :: rest := if_neg (by decide)
        rw [strip_some first, if_neg other] at found
        cases found
      rw [whole, behind, same]
      exact ⟨rest, by simp⟩
  · cases found

theorem firstBuiltin?_other {c : Char} (other : c ≠ '@') (text : List Char) :
    firstBuiltin? value (c :: text) = firstBuiltin? value text := by
  rw [firstBuiltin?, builtinRest?.eq_2 _ _ fun _ same => other (List.cons.inj same).1]
  rfl

theorem firstBuiltin?_append {text : List Char} (none : '@' ∉ text) (rest : List Char) :
    firstBuiltin? value (text ++ rest) = firstBuiltin? value rest := by
  induction text with
  | nil => rfl
  | cons c text ih =>
    rw [List.mem_cons, not_or] at none
    rw [List.cons_append, firstBuiltin?_other (Ne.symm none.1), ih none.2]

/-- A text in which no declaration starts is passed over. -/
theorem firstBuiltin?_quiet {text rest : List Char} (quiet : ¬markText <:+: text) (severed : Severed text rest) :
    firstBuiltin? value (text ++ rest) = firstBuiltin? value rest := by
  induction text with
  | nil => rfl
  | cons c text ih =>
    rw [List.infix_cons_iff, not_or] at quiet
    have later := ih quiet.2 severed.tail
    by_cases other : c = '@'
    case neg => rw [List.cons_append, firstBuiltin?_other other, later]
    subst other
    have nothing : builtinRest? value ('@' :: (text ++ rest)) = none := by
      by_contra some
      obtain ⟨after, found⟩ := Option.ne_none_iff_exists'.mp some
      have starts := builtinRest?_starts found
      rcases List.prefix_or_prefix_of_prefix starts (List.prefix_append text rest) with whole | ⟨left, part⟩
      · exact quiet.1 (List.cons_prefix_cons.mpr ⟨rfl, whole⟩)
      · -- the start of the declaration would run on into what follows the text
        rcases severed (List.cons_ne_nil _ _) with line | slash
        · rw [← part, List.prefix_append_right_inj] at starts
          obtain ⟨more, rfl⟩ := starts
          cases left with
          | nil =>
            rw [List.append_nil] at part
            exact quiet.1 (part ▸ List.prefix_refl _)
          | cons d left =>
            have member : d ∈ builtinWord ++ ['('] := part ▸ (by simp)
            rw [line d rfl] at member
            revert member
            decide
        · have member : '/' ∈ '@' :: (builtinWord ++ ['(']) := by
            rcases List.mem_cons.mp (List.mem_of_getLast? slash) with same | inside
            · cases same
            · exact .tail _ (part ▸ List.mem_append_left _ inside)
          revert member
          decide
    rw [List.cons_append, firstBuiltin?, nothing, later]
    rfl

/-- Nothing follows, or a comment. -/
def Remarks (tail : List Token) : Prop := ∀ token, tail.head? = some token → token.isComment = true

section Remarks

variable {tail : List Token} (remarks : Remarks tail)

include remarks

theorem dropWhile_remarks (row : List Token) :
    (row ++ tail).dropWhile Token.isBlank = row.dropWhile Token.isBlank ++ tail := by
  have stays : tail.dropWhile Token.isBlank = tail := by
    cases tail with
    | nil => rfl
    | cons token tail =>
      cases token with
      | comment text => rfl
      | word text => cases remarks _ rfl
      | char c => cases remarks _ rfl
  rw [List.dropWhile_append, stays]
  split
  · rename_i none
    rw [List.isEmpty_iff.mp none, List.nil_append]
  · rfl

theorem afterWord?_remarks (word : List Char) (row : List Token) :
    afterWord? word (row ++ tail) = (afterWord? word row).map (· ++ tail) := by
  match row with
  | [] =>
    cases found : afterWord? word tail with
    | none => exact found
    | some after => cases remarks _ (congrArg List.head? (afterWord?_eq_some.mp found))
  | .comment _ :: _ | .char _ :: _ => rfl
  | .word text :: row =>
    simp only [List.cons_append, afterWord?]
    split <;> rfl

theorem afterChar?_remarks (c : Char) (row : List Token) :
    afterChar? c (row ++ tail) = (afterChar? c row).map (· ++ tail) := by
  match row with
  | [] =>
    cases found : afterChar? c tail with
    | none => exact found
    | some after => cases remarks _ (congrArg List.head? (afterChar?_eq_some.mp found))
  | .comment _ :: _ | .word _ :: _ => rfl
  | .char d :: row =>
    simp only [List.cons_append, afterChar?]
    split <;> rfl

/-- No declaration reaches over a comment. -/
theorem markRest?_remarks (value : List Char) (row : List Token) :
    markRest? Token.isBlank value (row ++ tail) = (markRest? Token.isBlank value row).map (· ++ tail) := by
  have inner (row : List Token) :
      valueRest? Token.isBlank value (row ++ tail) = (valueRest? Token.isBlank value row).map (· ++ tail) := by
    unfold valueRest?
    rw [dropWhile_remarks remarks, afterWord?_remarks remarks]
    cases afterWord? value (row.dropWhile Token.isBlank) with
    | none => rfl
    | some after =>
      change afterChar? ')' ((after ++ tail).dropWhile Token.isBlank) = _
      rw [dropWhile_remarks remarks, afterChar?_remarks remarks]
      rfl
  unfold markRest?
  rw [afterChar?_remarks remarks]
  cases afterChar? '@' row with
  | none => rfl
  | some row =>
    simp only [Option.map_some, Option.bind_eq_bind, Option.bind_some, afterWord?_remarks remarks]
    cases afterWord? builtinWord row with
    | none => rfl
    | some row =>
      simp only [Option.map_some, Option.bind_some]
      rw [afterChar?_remarks remarks]
      cases afterChar? '(' row with
      | none => rfl
      | some row => exact inner row

/-- Where no comment has the start of a declaration in it, the first declaration is the first one of the tokens. -/
theorem firstBuiltin?_remarks (identifier : isIdentifier value = true) (legible : Legible [] (row ++ tail))
    (unquoted : Unquoted row) : firstBuiltin? value (render (row ++ tail)) =
      ((firstMark? Token.isBlank value row).map fun after => render (after ++ tail)).or
        (firstBuiltin? value (render tail)) := by
  induction row with
  | nil => rfl
  | cons token row ih =>
    rw [List.cons_append] at legible
    have later := ih legible.2 fun text member => unquoted text (.tail _ member)
    rw [List.cons_append, render_cons, firstMark?]
    cases token with
    | word text =>
      have plain := not_at_of_words fun c => isWordChar_of_mem (endsAt_word.mp legible.1).1 (c := c)
      rw [Token.chars, firstBuiltin?_append plain, later]
      rfl
    | comment text =>
      have ends := legible.1
      rw [List.append_nil] at ends
      rw [Token.chars, firstBuiltin?_quiet (unquoted text (.head _)) (severed_comment ends), later]
      rfl
    | char c =>
      rw [Token.chars, List.singleton_append]
      by_cases other : c = '@'
      · subst other
        have here := markRest?_remarks remarks value (.char '@' :: row)
        rw [List.cons_append] at here
        rw [firstBuiltin?, builtinRest?_render identifier legible.2, here, later]
        cases markRest? Token.isBlank value (.char '@' :: row) <;> rfl
      · rw [firstBuiltin?_other other, later, markRest?_other (by simpa using other)]
        rfl

end Remarks

variable {space : Token → Bool} {after : List Token}

theorem valueRest?_suffix (found : valueRest? space value row = some after) : after <:+ row := by
  obtain ⟨middle, named, closed⟩ := Option.bind_eq_some_iff.mp found
  have inner : middle <:+ row.dropWhile space := afterWord?_eq_some.mp named ▸ List.suffix_cons _ middle
  have last : after <:+ middle.dropWhile space := afterChar?_eq_some.mp closed ▸ List.suffix_cons _ after
  exact last.trans ((List.dropWhile_suffix _).trans (inner.trans (List.dropWhile_suffix _)))

theorem markRest?_suffix (found : markRest? space value row = some after) : after <:+ row := by
  obtain ⟨_, first, found⟩ := Option.bind_eq_some_iff.mp found
  obtain ⟨_, second, found⟩ := Option.bind_eq_some_iff.mp found
  obtain ⟨inner, third, found⟩ := Option.bind_eq_some_iff.mp found
  obtain rfl := afterChar?_eq_some.mp first
  obtain rfl := afterWord?_eq_some.mp second
  obtain rfl := afterChar?_eq_some.mp third
  exact (valueRest?_suffix found).trans ⟨[_, _, _], rfl⟩

theorem firstMark?_suffix (found : firstMark? space value row = some after) : after <:+ row := by
  induction row with
  | nil => cases found
  | cons token row ih =>
    rcases Option.or_eq_some_iff.mp found with here | ⟨-, later⟩
    · exact markRest?_suffix here
    · exact (ih later).trans (List.suffix_cons token row)

theorem Legible.suffix (legible : Legible [] row) (part : after <:+ row) : Legible [] after := by
  obtain ⟨front, rfl⟩ := part
  exact (legible_append.mp legible).2

theorem dark_of_identifier {name : List Char} (identifier : isIdentifier name = true) :
    ∀ c ∈ name, Text.isBlank c = false :=
  fun _ member => isBlank_of_isWordChar (isWordChar_of_mem identifier member)

/-- Unless a comment has the start of a declaration in it, the search finds the declarations without comments. -/
theorem declaredBuiltin?_render {value : String} (identifier : isIdentifier value.toList = true)
    (legible : Legible [] row) (unquoted : Unquoted row) :
    declaredBuiltin? (render row) value = declaredIn? Token.isBlank value row := by
  have last : Remarks [] := by simp [Remarks]
  have first := firstBuiltin?_remarks last identifier (by rwa [List.append_nil]) unquoted
  rw [List.append_nil] at first
  rw [declaredBuiltin?_eq _ _ (dark_of_identifier identifier), first, declaredIn?]
  cases found : firstMark? Token.isBlank value.toList row with
  | none => rfl
  | some after =>
    simp only [Option.map_some, Option.bind_some, List.append_nil]
    exact firstName?_render (legible.suffix (firstMark?_suffix found))

/-- What a comment quotes is found unless a declaration stands in front of it. -/
theorem declaredBuiltin?_quoted {value : String} (identifier : isIdentifier value.toList = true)
    {front back : List Token} {text : List Char} (legible : Legible [] (front ++ .comment text :: back))
    (unquoted : Unquoted front) :
    declaredBuiltin? (render (front ++ .comment text :: back)) value =
      match firstMark? Token.isBlank value.toList front with
      | some after => nameAhead? Token.isBlank (after ++ .comment text :: back)
      | none => declaredBuiltin? (text ++ render back) value := by
  have dark := dark_of_identifier identifier
  have remarks : Remarks (.comment text :: back) := by
    rintro token ⟨⟩
    rfl
  have first := firstBuiltin?_remarks remarks identifier legible unquoted
  rw [declaredBuiltin?_eq _ _ dark, first]
  cases found : firstMark? Token.isBlank value.toList front with
  | none => exact (declaredBuiltin?_eq _ _ dark).symm
  | some after =>
    obtain ⟨before, rfl⟩ := firstMark?_suffix found
    rw [List.append_assoc] at legible
    exact firstName?_render (legible_append.mp legible).2

/-! ## The search without comments -/

theorem dropWhile_blanked (row : List Token) :
    (row.map Token.blanked).dropWhile Token.isBlank = (row.dropWhile Token.isSpace).map Token.blanked := by
  have same : Token.isBlank ∘ Token.blanked = Token.isSpace := by
    funext token
    cases token <;> rfl
  rw [List.dropWhile_map, same]

theorem afterWord?_blanked (word : List Char) (row : List Token) :
    afterWord? word (row.map Token.blanked) = (afterWord? word row).map (List.map Token.blanked) := by
  match row with
  | [] | .comment _ :: _ | .char _ :: _ => rfl
  | .word text :: row =>
    simp only [List.map_cons, Token.blanked, afterWord?]
    split <;> rfl

theorem afterChar?_blanked {c : Char} (dark : c ≠ ' ') (row : List Token) :
    afterChar? c (row.map Token.blanked) = (afterChar? c row).map (List.map Token.blanked) := by
  match row with
  | [] | .word _ :: _ => rfl
  | .comment _ :: _ => simp [Token.blanked, afterChar?, dark.symm]
  | .char d :: row =>
    simp only [List.map_cons, Token.blanked, afterChar?]
    split <;> rfl

theorem valueRest?_blanked (value : List Char) (row : List Token) :
    valueRest? Token.isBlank value (row.map Token.blanked) =
      (valueRest? Token.isSpace value row).map (List.map Token.blanked) := by
  unfold valueRest?
  rw [dropWhile_blanked, afterWord?_blanked]
  cases afterWord? value (row.dropWhile Token.isSpace) with
  | none => rfl
  | some after =>
    change afterChar? ')' ((after.map Token.blanked).dropWhile Token.isBlank) = _
    rw [dropWhile_blanked, afterChar?_blanked (by decide)]
    rfl

theorem markRest?_blanked (value : List Char) (row : List Token) :
    markRest? Token.isBlank value (row.map Token.blanked) =
      (markRest? Token.isSpace value row).map (List.map Token.blanked) := by
  unfold markRest?
  rw [afterChar?_blanked (by decide)]
  cases afterChar? '@' row with
  | none => rfl
  | some row =>
    simp only [Option.map_some, Option.bind_eq_bind, Option.bind_some, afterWord?_blanked]
    cases afterWord? builtinWord row with
    | none => rfl
    | some row =>
      simp only [Option.map_some, Option.bind_some]
      rw [afterChar?_blanked (by decide)]
      cases afterChar? '(' row with
      | none => rfl
      | some row => exact valueRest?_blanked value row

theorem firstMark?_blanked (value : List Char) (row : List Token) :
    firstMark? Token.isBlank value (row.map Token.blanked) =
      (firstMark? Token.isSpace value row).map (List.map Token.blanked) := by
  induction row with
  | nil => rfl
  | cons token row ih =>
    have here := markRest?_blanked value (token :: row)
    rw [List.map_cons] at here
    rw [List.map_cons, firstMark?, firstMark?, here, ih]
    cases markRest? Token.isSpace value (token :: row) <;> rfl

/-- A word ends at a comment as it ends at a space. -/
theorem takeWhile_blanked (legible : Legible [] row) :
    (render (row.map Token.blanked)).takeWhile isWordChar = (render row).takeWhile isWordChar := by
  induction row with
  | nil => rfl
  | cons token row ih =>
    have later := ih legible.2
    rw [List.map_cons, render_cons, render_cons]
    cases token with
    | comment text =>
      obtain ⟨body, rfl⟩ := comment_starts legible.1
      rfl
    | word text =>
      have words : ∀ c ∈ text, isWordChar c = true := fun c => isWordChar_of_mem (endsAt_word.mp legible.1).1
      rw [blanked_of_code rfl, Token.chars, List.takeWhile_append_of_pos words, List.takeWhile_append_of_pos words,
        later]
    | char c =>
      rw [blanked_of_code rfl, Token.chars, List.singleton_append, List.singleton_append, List.takeWhile_cons,
        List.takeWhile_cons, later]

/-- Without the comments of the text, comments count as space. -/
theorem declaredBuiltin?_blanked {value : String} (identifier : isIdentifier value.toList = true)
    (legible : Legible [] row) :
    declaredBuiltin? (render (row.map Token.blanked)) value = declaredIn? Token.isSpace value row := by
  have unquoted : Unquoted (row.map Token.blanked) := by
    intro text member
    obtain ⟨token, -, same⟩ := List.mem_map.mp member
    cases token <;> cases same
  rw [declaredBuiltin?_render identifier (legible_blanked legible) unquoted, declaredIn?, declaredIn?, firstMark?_blanked]
  cases found : firstMark? Token.isSpace value.toList row with
  | none => rfl
  | some after =>
    have behind := legible_dropWhile Token.isSpace (legible.suffix (firstMark?_suffix found))
    simp only [Option.map_some, Option.bind_some, nameAhead?]
    rw [dropWhile_blanked, takeWhile_blanked behind]

end Text

end FrameGraph
