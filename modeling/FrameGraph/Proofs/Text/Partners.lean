import FrameGraph.Proofs.Text.Balance

/-! # Partners of brackets

A text is made of comments, words and other characters in one way only, and its comments are told by rules of their
own: a line comment ends before the line feed, a block comment where the comments inside it are closed, too, or with the
text. The brackets outside comments pair up like words over two kinds of brackets. The partner of an opening bracket is
the closing bracket of its kind behind such a word. Where there is none, a closing bracket that is not of the kind of the
innermost bracket comes before, or the text ends first, and the error tells which.
-/

namespace FrameGraph.Text

/-! ## What a text is made of -/

/-- The text is made of these comments, words and other characters. -/
inductive MadeOf : List Char → List Token → Prop where
  | nil : MadeOf [] []
  | line {text rest : List Char} {row : List Token} (inside : '\n' ∉ text)
      (stop : ∀ c, rest.head? = some c → c = '\n') (more : MadeOf rest row) :
      MadeOf ('/' :: '/' :: text ++ rest) (.comment ('/' :: '/' :: text) :: row)
  | block {text rest : List Char} {row : List Token} (closed : Closes 1 text) (more : MadeOf rest row) :
      MadeOf ('/' :: '*' :: text ++ rest) (.comment ('/' :: '*' :: text) :: row)
  | unclosed {text : List Char} (never : ∀ front, front <+: text → ¬ Closes 1 front) :
      MadeOf ('/' :: '*' :: text) [.comment ('/' :: '*' :: text)]
  | word {text rest : List Char} {row : List Token} (spelled : isIdentifier text = true)
      (stop : ∀ c, rest.head? = some c → isWordChar c = false) (more : MadeOf rest row) :
      MadeOf (text ++ rest) (.word text :: row)
  | char {c : Char} {rest : List Char} {row : List Token} (plain : isWordStart c = false)
      (bare : c = '/' → rest.head? ≠ some '/' ∧ rest.head? ≠ some '*') (more : MadeOf rest row) :
      MadeOf (c :: rest) (.char c :: row)

/-- A comment that is closed nowhere runs to the end. -/
theorem splitBlock_unclosed {text : List Char} (never : ∀ front, front <+: text → ¬ Closes 1 front) :
    splitBlock 1 text = (text, []) := by
  have whole := splitBlock_append 1 text
  rcases closes_splitBlock 1 text with closed | none
  · exact absurd closed (never _ ⟨_, whole⟩)
  · rw [none, List.append_nil] at whole
    exact Prod.ext whole none

theorem MadeOf.tokens_eq {text : List Char} {row : List Token} (made : MadeOf text row) : tokens text = row := by
  induction made with
  | nil => simp [tokens]
  | line inside stop _ ih => exact ih ▸ (endsAt_line inside stop).tokens_eq
  | block closed _ ih => exact ih ▸ (endsAt_block (closed.splitBlock_append _)).tokens_eq
  | @unclosed text never =>
    have cut : splitBlock 1 (text ++ []) = (text, []) := by rw [List.append_nil, splitBlock_unclosed never]
    simpa [Token.chars, tokens] using (endsAt_block cut).tokens_eq
  | word spelled stop _ ih => exact ih ▸ (endsAt_word.mpr ⟨spelled, stop⟩).tokens_eq
  | char plain bare _ ih => exact ih ▸ (endsAt_char.mpr ⟨plain, bare⟩).tokens_eq

/-- What is read first is a part of the text. -/
theorem Token.EndsAt.madeOf {token : Token} {rest : List Char} {row : List Token} (ends : token.EndsAt rest)
    (more : MadeOf rest row) : MadeOf (token.chars ++ rest) (token :: row) := by
  cases token with
  | word text =>
    obtain ⟨spelled, stop⟩ := endsAt_word.mp ends
    exact .word spelled stop more
  | char c =>
    obtain ⟨plain, bare⟩ := endsAt_char.mp ends
    exact .char plain bare more
  | comment body =>
    rcases endsAt_comment ends with ⟨text, rfl, inside, stop⟩ | ⟨text, rfl, closed⟩ | ⟨⟨text, rfl, cut⟩, rfl⟩
    · exact .line inside stop more
    · exact .block closed more
    · by_cases closed : Closes 1 text
      · exact .block closed more
      · have none : row = [] := by simpa [tokens] using more.tokens_eq.symm
        subst none
        rw [List.append_nil]
        refine .unclosed fun front starts early => closed ?_
        obtain ⟨rest, split⟩ := starts
        -- a comment that were closed earlier would have been cut there
        have shorter := early.splitBlock_append rest
        rw [split, cut, Prod.mk.injEq] at shorter
        exact shorter.1 ▸ early

theorem madeOf_tokens (text : List Char) : MadeOf text (tokens text) := by
  fun_induction tokens text with
  | case1 => exact .nil
  | case2 c rest ih =>
    have made := (endsAt_firstToken c rest).madeOf ih
    rwa [firstToken_append] at made

theorem madeOf_iff {text : List Char} {row : List Token} : MadeOf text row ↔ tokens text = row :=
  ⟨MadeOf.tokens_eq, fun read => read ▸ madeOf_tokens text⟩

theorem MadeOf.render_eq {text : List Char} {row : List Token} (made : MadeOf text row) : render row = text :=
  made.tokens_eq ▸ render_tokens text

/-- The text behind a part is made of the parts behind it. -/
theorem MadeOf.tail {text : List Char} {token : Token} {row : List Token} (made : MadeOf text (token :: row)) :
    MadeOf (render row) row := by
  cases made with
  | line _ _ more => rwa [more.render_eq]
  | block _ more => rwa [more.render_eq]
  | unclosed => exact .nil
  | word _ _ more => rwa [more.render_eq]
  | char _ _ more => rwa [more.render_eq]

theorem MadeOf.drop {text : List Char} (front : List Token) {row : List Token} (made : MadeOf text (front ++ row)) :
    MadeOf (render row) row := by
  induction front generalizing text with
  | nil => exact made.render_eq ▸ made
  | cons token front ih => exact ih made.tail

/-! ## Brackets that pair up -/

/-- A word of brackets in which each has its partner. -/
inductive Paired : List Char → Prop where
  | nil : Paired []
  | group {c : Char} {inside rest : List Char} (opens : isOpener c = true) (inner : Paired inside) (more : Paired rest) :
      Paired (c :: inside ++ closerOf c :: rest)

/-- A word of brackets that leaves these brackets open, innermost first, and closes what it closes by their partners. -/
inductive LeavesOpen : List Char → List Char → Prop where
  | none {word : List Char} (paired : Paired word) : LeavesOpen word []
  | one {word inside left : List Char} {c : Char} (before : LeavesOpen word left) (opens : isOpener c = true)
      (paired : Paired inside) : LeavesOpen (word ++ c :: inside) (c :: left)

theorem Paired.append {a b : List Char} (first : Paired a) (second : Paired b) : Paired (a ++ b) := by
  induction first with
  | nil => exact second
  | group opens inner _ _ ih =>
    rw [List.append_assoc, List.cons_append]
    exact .group opens inner ih

/-- A word that leaves nothing open pairs up. -/
theorem LeavesOpen.paired {word : List Char} (opened : LeavesOpen word []) : Paired word := by
  cases opened
  assumption

theorem LeavesOpen.append {word more left : List Char} (opened : LeavesOpen word left) (paired : Paired more) :
    LeavesOpen (word ++ more) left := by
  cases opened with
  | none first => exact .none (first.append paired)
  | one before opens inside =>
    rw [List.append_assoc, List.cons_append]
    exact .one before opens (inside.append paired)

theorem owedAfter_cons_opener {c : Char} (opens : isOpener c = true) (owed word : List Char) :
    owedAfter owed (c :: word) = owedAfter (closerOf c :: owed) word := by
  simp [owedAfter, opens]

theorem owedAfter_cons_closerOf (c : Char) (owed word : List Char) :
    owedAfter (closerOf c :: owed) (closerOf c :: word) = owedAfter owed word := by
  simp [owedAfter, isOpener_closerOf]

theorem Paired.owedAfter {word : List Char} (paired : Paired word) (owed : List Char) :
    owedAfter owed word = some owed := by
  induction paired generalizing owed with
  | nil => rfl
  | group opens _ _ inner more =>
    rw [List.cons_append, owedAfter_cons_opener opens, owedAfter_append, inner, Option.bind_some,
      owedAfter_cons_closerOf, more]

theorem LeavesOpen.owedAfter {word left : List Char} (opened : LeavesOpen word left) :
    owedAfter [] word = some (left.map closerOf) := by
  induction opened with
  | none paired => exact paired.owedAfter []
  | one _ opens paired ih =>
    rw [owedAfter_append, ih, Option.bind_some, owedAfter_cons_opener opens, paired.owedAfter, List.map_cons]

/-- The closing brackets that are owed are those of the brackets that are left open. -/
theorem leavesOpen_of_owedAfter {word owed : List Char} (brackets : ∀ c ∈ word, isBracket c = true)
    (read : owedAfter [] word = some owed) : ∃ left, LeavesOpen word left ∧ left.map closerOf = owed := by
  induction word using List.reverseRecOn generalizing owed with
  | nil =>
    cases read
    exact ⟨[], .none .nil, rfl⟩
  | append_singleton word c ih =>
    rw [List.forall_mem_append, List.forall_mem_singleton] at brackets
    rw [owedAfter_append, Option.bind_eq_some_iff] at read
    obtain ⟨before, early, read⟩ := read
    obtain ⟨left, opened, rfl⟩ := ih brackets.1 early
    simp only [owedAfter] at read
    split at read
    · rename_i opens
      cases read
      exact ⟨c :: left, .one opened opens .nil, rfl⟩
    · cases opened with
      | none paired => cases read
      | @one outside inside left o opened opens paired =>
        rw [List.map_cons] at read
        dsimp only at read
        split at read
        · rename_i same
          cases read
          refine ⟨left, ?_, rfl⟩
          rw [List.append_assoc, List.cons_append, ← same]
          exact opened.append (.group opens paired .nil)
        · cases read

theorem isBracket_of_mem {row : List Token} {c : Char} (listed : c ∈ brackets row) : isBracket c = true := by
  obtain ⟨token, -, found⟩ := List.mem_filterMap.mp listed
  cases token with
  | word text => cases found
  | comment text => cases found
  | char d =>
    simp only [Token.bracket?, Option.ite_none_right_eq_some] at found
    obtain ⟨bracket, ⟨⟩⟩ := found
    exact bracket

theorem leavesOpen_iff {row : List Token} {owed : List Char} :
    owedAfter [] (brackets row) = some owed ↔ ∃ left, LeavesOpen (brackets row) left ∧ left.map closerOf = owed := by
  constructor
  · exact leavesOpen_of_owedAfter fun _ => isBracket_of_mem
  · rintro ⟨left, opened, rfl⟩
    exact opened.owedAfter

/-- A row is balanced when its brackets pair up. -/
theorem balanced_iff_paired {row : List Token} : Balanced row ↔ Paired (brackets row) := by
  constructor
  · intro balanced
    obtain ⟨left, opened, none⟩ := leavesOpen_iff.mp balanced
    exact (List.map_eq_nil_iff.mp none ▸ opened).paired
  · exact fun paired => paired.owedAfter []

/-! ## Where no partner is found -/

/-- How the search for the last one of the owed brackets fails: a closing bracket is not the one that is owed, or the row
ends. -/
inductive Misses (unclosed : PatchError) (last : Char) (offset : Nat) (left : List Char) (row : List Token) :
    PatchError → Prop where
  | mismatch {before after : List Token} {b : Char} {more : List Char} (split : row = before ++ .char b :: after)
      (closes : isCloser b = true) (read : owedAfter left (brackets before) = some more)
      (other : (more ++ [last]).head? ≠ some b) :
      Misses unclosed last offset left row (.unbalancedBrackets b (offset + byteSize before))
  | ends {more : List Char} (read : owedAfter left (brackets row) = some more) :
      Misses unclosed last offset left row unclosed

section

variable {unclosed error : PatchError} {offset : Nat} {last : Char} {row : List Token}

theorem keepToken_error {token : Token} {split : Except PatchError (List Token × List Token)} :
    keepToken token split = .error error ↔ split = .error error := by
  cases split <;> simp [keepToken, Except.map]

/-- A closing bracket that is not owed ends the search at once. -/
theorem Misses.here {c : Char} {left : List Char} (closes : isCloser c = true) (other : (left ++ [last]).head? ≠ some c)
    (rest : List Token) : Misses unclosed last offset left (.char c :: rest) (.unbalancedBrackets c offset) :=
  @mismatch unclosed last offset left _ [] rest c left rfl closes rfl other

/-- What is missed behind a token is missed with it. -/
theorem Misses.cons {token : Token} {left left' : List Char}
    (reads : ∀ part, owedAfter left (brackets (token :: part)) = owedAfter left' (brackets part))
    (misses : Misses unclosed last (offset + token.size) left' row error) :
    Misses unclosed last offset left (token :: row) error := by
  cases misses with
  | @mismatch before _ _ _ split closes read other =>
    rw [Nat.add_assoc, ← byteSize]
    exact .mismatch (congrArg (token :: ·) split) closes ((reads before).trans read) other
  | ends read => exact .ends ((reads row).trans read)

/-- A closing bracket that is owed is not owed any more. -/
theorem owedAfter_owed {c : Char} (closes : isCloser c = true) (outer : List Char) (part : List Token) :
    owedAfter (c :: outer) (brackets (.char c :: part)) = owedAfter outer (brackets part) := by
  rw [brackets_cons, brackets_char (by simp [isBracket, closes]), List.singleton_append, owedAfter,
    if_neg (by simp [isOpener_of_isCloser closes]), if_pos rfl]

/-- The search fails in no other way. -/
theorem splitClosed_misses (left : List Char)
    (failed : splitClosed unclosed offset (left ++ [last]) row = .error error) :
    Misses unclosed last offset left row error := by
  induction row generalizing offset left with
  | nil =>
    cases failed
    exact .ends rfl
  | cons token rest ih =>
    rcases token_kinds token with plain | ⟨c, rfl, opens⟩ | ⟨c, rfl, closing⟩
    · rw [splitClosed_plain plain, keepToken_error] at failed
      exact (ih left failed).cons fun _ => owedAfter_plain plain
    · rw [splitClosed_opener opens, keepToken_error] at failed
      exact (ih (closerOf c :: left) failed).cons fun _ => owedAfter_opener opens
    · cases left with
      | nil =>
        rw [List.nil_append, splitClosed_closer closing] at failed
        split_ifs at failed with same none
        · simp at none
        · cases failed
          exact .here closing (by simpa using same) rest
      | cons expected left =>
        rw [List.cons_append, splitClosed_closer closing] at failed
        split_ifs at failed with same none
        · subst same
          exact (ih left (keepToken_error.mp failed)).cons (owedAfter_owed closing left)
        · cases failed
          exact .here closing (by simpa using same) rest

/-- Behind a part of the row that closes no more than is owed, the search goes on with what is owed then. -/
theorem splitClosed_behind (left : List Char) {part rest : List Token} {more : List Char}
    (read : owedAfter left (brackets part) = some more) :
    splitClosed unclosed offset (left ++ [last]) (part ++ rest) = .error error ↔
      splitClosed unclosed (offset + byteSize part) (more ++ [last]) rest = .error error := by
  induction part generalizing offset left with
  | nil =>
    obtain rfl : left = more := Option.some.inj read
    rfl
  | cons token part ih =>
    rw [List.cons_append, byteSize, ← Nat.add_assoc]
    rcases token_kinds token with plain | ⟨c, rfl, opens⟩ | ⟨c, rfl, closing⟩
    · rw [owedAfter_plain plain] at read
      rw [splitClosed_plain plain, keepToken_error]
      exact ih left read
    · rw [owedAfter_opener opens] at read
      rw [splitClosed_opener opens, keepToken_error]
      exact ih (closerOf c :: left) read
    · obtain ⟨outer, rfl, later⟩ := (owedAfter_closer closing).mp read
      rw [List.cons_append, splitClosed_closer closing, if_pos rfl, if_neg (by simp), keepToken_error]
      exact ih outer later

/-- A closing bracket that is not the one that is owed ends the search. -/
theorem splitClosed_mismatch (left : List Char) {b : Char} (closes : isCloser b = true)
    (other : (left ++ [last]).head? ≠ some b) (rest : List Token) :
    splitClosed unclosed offset (left ++ [last]) (.char b :: rest) = .error (.unbalancedBrackets b offset) := by
  cases left with
  | nil => rw [List.nil_append, splitClosed_closer closes, if_neg (by simpa using other)]
  | cons expected left => rw [List.cons_append, splitClosed_closer closes, if_neg (by simpa using other)]

/-- The search fails where a bracket or the end of the row makes it. -/
theorem splitClosed_error_iff (left : List Char) :
    splitClosed unclosed offset (left ++ [last]) row = .error error ↔ Misses unclosed last offset left row error := by
  refine ⟨splitClosed_misses left, fun misses => ?_⟩
  cases misses with
  | mismatch split closes read other =>
    rw [split, splitClosed_behind left read]
    exact splitClosed_mismatch _ closes other _
  | ends read =>
    rw [← List.append_nil row, splitClosed_behind left read]
    rfl

end

/-! ## Partners -/

/-- The offset of the partner of a bracket that stands at byte `offset` in front of a row. -/
def partner (c : Char) (offset : Nat) (row : List Token) : Except PatchError Nat :=
  (splitGroup c offset row).map fun cut => offset + 1 + byteSize cut.1

section

variable {c : Char} {offset : Nat} {row : List Token}

/-- The partner stands behind brackets that pair up. -/
theorem partner_ok {place : Nat} :
    partner c offset row = .ok place ↔ ∃ inside after, row = inside ++ .char (closerOf c) :: after ∧
      Paired (brackets inside) ∧ place = offset + 1 + byteSize inside := by
  constructor
  · intro found
    cases cut : splitGroup c offset row with
    | error error => simp [partner, cut, Except.map] at found
    | ok parts =>
      obtain ⟨whole, balanced⟩ := splitGroup_ok.mp cut
      simp only [partner, cut, Except.map, Except.ok.injEq] at found
      exact ⟨parts.1, parts.2, whole, balanced_iff_paired.mp balanced, found.symm⟩
  · rintro ⟨inside, after, whole, paired, rfl⟩
    rw [partner, splitGroup_ok.mpr ⟨whole, balanced_iff_paired.mpr paired⟩]
    rfl

theorem partner_error {error : PatchError} : partner c offset row = .error error ↔
    splitGroup c offset row = .error error := by
  cases cut : splitGroup c offset row <;> simp [partner, cut, Except.map]

/-- The bracket that is owed first is the partner of the innermost one that is open. -/
theorem head?_owed (opened : List Char) (b : Char) :
    (opened.map closerOf ++ [closerOf c]).head? ≠ some b ↔ closerOf (opened.headD c) ≠ b := by
  cases opened <;> simp

/-- Without a partner, a closing bracket in front is not the partner of the innermost bracket that is open, or the
text ends first. -/
theorem partner_fails {error : PatchError} : partner c offset row = .error error ↔
    (∃ inside b after opened, row = inside ++ .char b :: after ∧ isCloser b = true ∧
        LeavesOpen (brackets inside) opened ∧ closerOf (opened.headD c) ≠ b ∧
        error = .unbalancedBrackets b (offset + 1 + byteSize inside)) ∨
      (∃ opened, LeavesOpen (brackets row) opened) ∧ error = .unbalancedBrackets c offset := by
  rw [partner_error]
  refine (splitClosed_error_iff []).trans ⟨fun misses => ?_, ?_⟩
  · cases misses with
    | mismatch split closes read other =>
      obtain ⟨opened, opens, rfl⟩ := leavesOpen_iff.mp read
      exact .inl ⟨_, _, _, opened, split, closes, opens, (head?_owed opened _).mp other, rfl⟩
    | ends read =>
      obtain ⟨opened, opens, -⟩ := leavesOpen_iff.mp read
      exact .inr ⟨⟨opened, opens⟩, rfl⟩
  · rintro (⟨inside, b, after, opened, split, closes, opens, other, rfl⟩ | ⟨⟨opened, opens⟩, rfl⟩)
    · exact .mismatch split closes opens.owedAfter ((head?_owed opened b).mpr other)
    · exact .ends opens.owedAfter

end

/-- In every text, an opening bracket outside comments has its partner where the brackets outside comments pair up in
front of a closing bracket of its kind, and nowhere else. Where it has none, the error names the first closing bracket
that is not the partner of the innermost bracket open there, or the opening bracket if the text ends first. -/
theorem partner_iff :
    (∀ text, ∃! row, MadeOf text row) ∧
    ∀ (text : List Char) (front rest : List Token) (c : Char), MadeOf text (front ++ .char c :: rest) →
      MadeOf (render rest) rest ∧
      (∀ place, partner c (byteSize front) rest = .ok place ↔
        ∃ inside after, rest = inside ++ .char (closerOf c) :: after ∧ Paired (brackets inside) ∧
          place = byteSize front + 1 + byteSize inside) ∧
      ∀ error, partner c (byteSize front) rest = .error error ↔
        (∃ inside b after opened, rest = inside ++ .char b :: after ∧ isCloser b = true ∧
            LeavesOpen (brackets inside) opened ∧ closerOf (opened.headD c) ≠ b ∧
            error = .unbalancedBrackets b (byteSize front + 1 + byteSize inside)) ∨
          (∃ opened, LeavesOpen (brackets rest) opened) ∧ error = .unbalancedBrackets c (byteSize front) := by
  refine ⟨fun text => ⟨tokens text, madeOf_tokens text, fun row made => made.tokens_eq.symm⟩, ?_⟩
  intro text front rest c made
  exact ⟨(made.drop front).tail, fun _ => partner_ok, fun _ => partner_fails⟩

/-- A bracket inside a comment is nobody's partner, and one of the other kind ends the search. -/
theorem partner_iff_comment :
    (MadeOf "\x7b(a) /* \x7d */ \x7d".toList (.char '\x7b' :: tokens "(a) /* \x7d */ \x7d".toList) ∧
      partner '\x7b' 0 (tokens "(a) /* \x7d */ \x7d".toList) = .ok 13) ∧
    MadeOf "( // )\n\x7d".toList (.char '(' :: tokens " // )\n\x7d".toList) ∧
      partner '(' 0 (tokens " // )\n\x7d".toList) = .error (.unbalancedBrackets '\x7d' 7) := by
  have curly : MadeOf "\x7b(a) /* \x7d */ \x7d".toList ([] ++ .char '\x7b' :: tokens "(a) /* \x7d */ \x7d".toList) :=
    (madeOf_iff.mpr (by decide +kernel))
  have round : MadeOf "( // )\n\x7d".toList ([] ++ .char '(' :: tokens " // )\n\x7d".toList) :=
    (madeOf_iff.mpr (by decide +kernel))
  refine ⟨⟨curly, ((partner_iff.2 _ [] _ _ curly).2.1 13).mpr ?_⟩, round, ((partner_iff.2 _ [] _ _ round).2.2 _).mpr ?_⟩
  · have inside : Paired (brackets (tokens "(a) /* \x7d */ ".toList)) := by
      have only : brackets (tokens "(a) /* \x7d */ ".toList) = '(' :: [] ++ closerOf '(' :: [] := by decide +kernel
      exact only ▸ .group rfl .nil .nil
    exact ⟨tokens "(a) /* \x7d */ ".toList, [], by decide +kernel, inside, by decide +kernel⟩
  · have inside : LeavesOpen (brackets (tokens " // )\n".toList)) [] := by
      have only : brackets (tokens " // )\n".toList) = [] := by decide +kernel
      exact only ▸ .none .nil
    exact .inl ⟨tokens " // )\n".toList, '\x7d', [], [], by decide +kernel, rfl, inside, by decide, by decide +kernel⟩

end FrameGraph.Text
