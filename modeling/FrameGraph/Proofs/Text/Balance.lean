import FrameGraph.Proofs.Text.Reading
import FrameGraph.Text.Bracket

/-! # Brackets that pair up

Only the brackets of a row outside its comments count. Reading them with a stack of the closing brackets that are
owed says whether they pair up; where nothing is owed the row is at depth zero. Cutting a group out of a row finds
the balanced inside in front of the partner of the opening bracket, and there is one such place at most.
-/

namespace FrameGraph.Text

def isBracket (c : Char) : Bool := isOpener c || isCloser c

/-- The bracket that a token is. -/
def Token.bracket? : Token → Option Char
  | .char c => if isBracket c then some c else none
  | _ => none

/-- The brackets of a row, outside comments. -/
def brackets (row : List Token) : List Char := row.filterMap Token.bracket?

/-- The closing brackets owed after some brackets, innermost first; none once a closing bracket is not the one that
is owed. -/
def owedAfter (owed : List Char) : List Char → Option (List Char)
  | [] => some owed
  | c :: rest =>
    if isOpener c then owedAfter (closerOf c :: owed) rest
    else match owed with
      | [] => none
      | expected :: outer => if expected = c then owedAfter outer rest else none

/-- Every bracket of the row has its partner in the row. -/
def Balanced (row : List Token) : Prop := owedAfter [] (brackets row) = some []

instance (row : List Token) : Decidable (Balanced row) := inferInstanceAs (Decidable (_ = _))

/-! ## Brackets -/

theorem isCloser_of_isOpener {c : Char} (opens : isOpener c = true) : isCloser c = false := by
  simp only [isOpener, Bool.or_eq_true, beq_iff_eq] at opens
  rcases opens with rfl | rfl <;> decide

theorem isCloser_closerOf (c : Char) : isCloser (closerOf c) = true := by
  unfold closerOf
  split <;> decide

theorem isOpener_closerOf (c : Char) : isOpener (closerOf c) = false := by
  unfold closerOf
  split <;> decide

theorem isWordChar_bracket {c : Char} (bracket : isBracket c = true) : isWordChar c = false := by
  simp only [isBracket, isOpener, isCloser, Bool.or_eq_true, beq_iff_eq] at bracket
  rcases bracket with (rfl | rfl) | (rfl | rfl) <;> decide

@[simp] theorem brackets_append (a b : List Token) : brackets (a ++ b) = brackets a ++ brackets b :=
  List.filterMap_append

theorem brackets_cons (token : Token) (row : List Token) :
    brackets (token :: row) = brackets [token] ++ brackets row := brackets_append [token] row

theorem brackets_char {c : Char} (bracket : isBracket c = true) : brackets [.char c] = [c] := by
  simp [brackets, Token.bracket?, bracket]

theorem brackets_plain {token : Token} (plain : token.bracket? = none) : brackets [token] = [] := by
  simp [brackets, plain]

theorem bracket?_char {c : Char} (opens : isOpener c = false) (closes : isCloser c = false) :
    (Token.char c).bracket? = none := by
  simp [Token.bracket?, isBracket, opens, closes]

theorem owedAfter_append (owed a b : List Char) :
    owedAfter owed (a ++ b) = (owedAfter owed a).bind fun left => owedAfter left b := by
  induction a generalizing owed with
  | nil => rfl
  | cons c a ih =>
    simp only [List.cons_append, owedAfter]
    split
    · exact ih _
    · split
      · rfl
      · split
        · exact ih _
        · rfl

/-- What is owed further out stays owed. -/
theorem owedAfter_base {owed a left : List Char} (read : owedAfter owed a = some left) (base : List Char) :
    owedAfter (owed ++ base) a = some (left ++ base) := by
  induction a generalizing owed with
  | nil =>
    cases read
    rfl
  | cons c a ih =>
    simp only [owedAfter] at read ⊢
    split
    · rename_i opens
      rw [if_pos opens] at read
      exact ih read
    · rename_i opens
      rw [if_neg opens] at read
      cases owed with
      | nil => cases read
      | cons expected outer =>
        dsimp only [List.cons_append] at read ⊢
        split
        · rename_i same
          rw [if_pos same] at read
          exact ih read
        · rename_i same
          rw [if_neg same] at read
          cases read

/-! ## Balanced rows -/

theorem balanced_nil : Balanced [] := rfl

theorem balanced_plain {token : Token} (plain : token.bracket? = none) : Balanced [token] := by
  rw [Balanced, brackets_plain plain]
  rfl

theorem brackets_of_plain {row : List Token} (plain : ∀ token ∈ row, token.bracket? = none) : brackets row = [] :=
  List.filterMap_eq_nil_iff.mpr plain

/-- Tokens that are no brackets do not count. -/
theorem balanced_append_plain {a b : List Token} (plain : ∀ token ∈ b, token.bracket? = none) :
    Balanced (a ++ b) ↔ Balanced a := by
  rw [Balanced, brackets_append, brackets_of_plain plain, List.append_nil, Balanced]

/-- A balanced row owes as much at its end as before. -/
theorem Balanced.owedAfter {row : List Token} (balanced : Balanced row) (owed : List Char) :
    owedAfter owed (brackets row) = some owed := owedAfter_base balanced owed

/-- Behind a balanced row the depth is as in front of it. -/
theorem Balanced.append_iff {a b : List Token} (balanced : Balanced a) : Balanced (a ++ b) ↔ Balanced b := by
  rw [Balanced, brackets_append, owedAfter_append, balanced.owedAfter]
  rfl

theorem Balanced.append {a b : List Token} (first : Balanced a) (second : Balanced b) : Balanced (a ++ b) :=
  first.append_iff.mpr second

theorem balanced_cons {token : Token} (plain : token.bracket? = none) {row : List Token} :
    Balanced (token :: row) ↔ Balanced row := (balanced_plain plain).append_iff

/-- A group: an opening bracket, its inside and its partner. -/
def group (c : Char) (inside : List Token) : List Token := .char c :: inside ++ [.char (closerOf c)]

theorem Balanced.group {c : Char} (opens : isOpener c = true) {inside : List Token} (balanced : Balanced inside) :
    Balanced (group c inside) := by
  have closer := isOpener_closerOf c
  rw [Balanced, Text.group, List.cons_append, brackets_cons, brackets_append,
    brackets_char (by simp [isBracket, opens]), brackets_char (by simp [isBracket, isCloser_closerOf])]
  simp [Text.owedAfter, opens, owedAfter_append, balanced.owedAfter, closer]

/-- Right behind an opening bracket and part of its balanced inside the depth is not zero. -/
theorem not_balanced_opened {c : Char} (opens : isOpener c = true) {part more : List Token}
    (inside : Balanced (part ++ more)) : ¬ Balanced (.char c :: part) := by
  intro balanced
  rw [Balanced, brackets_append, owedAfter_append] at inside
  rw [Balanced, brackets_cons, brackets_char (by simp [isBracket, opens])] at balanced
  simp only [List.singleton_append, owedAfter, opens, if_true] at balanced
  cases read : Text.owedAfter [] (brackets part) with
  | none => simp [read] at inside
  | some left =>
    have based := owedAfter_base read [closerOf c]
    rw [List.nil_append, balanced] at based
    simp at based

/-- A balanced front that goes beyond the start of a group holds the whole group. -/
theorem balanced_front {c : Char} (opens : isOpener c = true) {inside after front rest : List Token}
    (balanced : Balanced inside) (whole : group c inside ++ after = front ++ rest) (top : Balanced front) :
    front = [] ∨ ∃ behind, front = group c inside ++ behind ∧ after = behind ++ rest := by
  cases front with
  | nil => exact .inl rfl
  | cons token front =>
    right
    rw [group, List.cons_append, List.cons_append, List.cons_append, List.cons.injEq, List.append_assoc] at whole
    obtain ⟨rfl, whole⟩ := whole
    obtain ⟨behind, split, whole⟩ | ⟨more, split, -⟩ := List.append_eq_append_iff.mp whole
    · -- the front ends behind the inside
      cases behind with
      | nil =>
        rw [List.append_nil] at split
        subst split
        exact (not_balanced_opened opens (show Balanced (front ++ []) by rwa [List.append_nil]) top).elim
      | cons closer behind =>
        rw [List.cons_append, List.nil_append, List.cons_append, List.cons.injEq] at whole
        obtain ⟨rfl, rfl⟩ := whole
        exact ⟨behind, by simp [group, split], rfl⟩
    · subst split
      exact (not_balanced_opened opens balanced top).elim

/-- Where two rows start alike, the shorter of two fronts is the start of the longer one. -/
theorem front_cases {α : Type} {a b x y : List α} {t : α} (whole : a ++ b = x ++ t :: y) :
    (∃ more, a = x ++ t :: more ∧ y = more ++ b) ∨ ∃ behind, x = a ++ behind ∧ b = behind ++ t :: y := by
  obtain ⟨behind, split, rest⟩ | ⟨more, split, rest⟩ := List.append_eq_append_iff.mp whole
  · exact .inr ⟨behind, split, rest⟩
  · cases more with
    | nil => exact .inr ⟨[], by simpa using split.symm, by simpa using rest.symm⟩
    | cons u more =>
      rw [List.cons_append, List.cons.injEq] at rest
      obtain ⟨rfl, rfl⟩ := rest
      exact .inl ⟨more, split, rfl⟩

/-! ## Cutting a group out of a row -/

/-- A token is no bracket, an opening one or a closing one. -/
theorem token_kinds (token : Token) : token.bracket? = none ∨ (∃ c, token = .char c ∧ isOpener c = true) ∨
    ∃ c, token = .char c ∧ isCloser c = true := by
  cases token with
  | word text => exact .inl rfl
  | comment text => exact .inl rfl
  | char c =>
    cases opens : isOpener c with
    | true => exact .inr (.inl ⟨c, rfl, opens⟩)
    | false =>
      cases closes : isCloser c with
      | true => exact .inr (.inr ⟨c, rfl, closes⟩)
      | false => exact .inl (bracket?_char opens closes)

theorem isOpener_of_isCloser {c : Char} (closes : isCloser c = true) : isOpener c = false := by
  by_contra opens
  rw [isCloser_of_isOpener (eq_true_of_ne_false opens)] at closes
  cases closes

section

variable {token : Token} {c : Char} {row : List Token} {owed left : List Char}

theorem owedAfter_plain (plain : token.bracket? = none) :
    owedAfter owed (brackets (token :: row)) = owedAfter owed (brackets row) := by
  rw [brackets_cons, brackets_plain plain, List.nil_append]

theorem owedAfter_opener (opens : isOpener c = true) :
    owedAfter owed (brackets (.char c :: row)) = owedAfter (closerOf c :: owed) (brackets row) := by
  rw [brackets_cons, brackets_char (by simp [isBracket, opens])]
  simp [owedAfter, opens]

/-- A closing bracket is the one that is owed. -/
theorem owedAfter_closer (closes : isCloser c = true) :
    owedAfter owed (brackets (.char c :: row)) = some left ↔
      ∃ outer, owed = c :: outer ∧ owedAfter outer (brackets row) = some left := by
  rw [brackets_cons, brackets_char (by simp [isBracket, closes])]
  simp only [List.singleton_append, owedAfter, isOpener_of_isCloser closes, Bool.false_eq_true, if_false]
  cases owed with
  | nil => simp
  | cons expected outer => by_cases same : expected = c <;> simp [same]

end

section

variable {unclosed : PatchError} {offset : Nat} {owed : List Char} {inside after rest : List Token}

/-- The token in front of the inside. -/
def keepToken (token : Token) (split : Except PatchError (List Token × List Token)) :
    Except PatchError (List Token × List Token) :=
  split.map fun (inside, after) => (token :: inside, after)

theorem keepToken_ok {token : Token} {split : Except PatchError (List Token × List Token)} :
    keepToken token split = .ok (inside, after) ↔ ∃ part, inside = token :: part ∧ split = .ok (part, after) := by
  cases split with
  | error error => simp [keepToken, Except.map]
  | ok parts => cases parts; simp [keepToken, Except.map, eq_comm, and_comm]

theorem splitClosed_plain {token : Token} (plain : token.bracket? = none) :
    splitClosed unclosed offset owed (token :: rest) =
      keepToken token (splitClosed unclosed (offset + token.size) owed rest) := by
  cases token with
  | word text => rfl
  | comment text => rfl
  | char c =>
    have none : isOpener c = false ∧ isCloser c = false := by
      simpa [Token.bracket?, isBracket] using plain
    rw [splitClosed.eq_def]
    simp [none, keepToken]

theorem splitClosed_opener {c : Char} (opens : isOpener c = true) :
    splitClosed unclosed offset owed (.char c :: rest) =
      keepToken (.char c) (splitClosed unclosed (offset + (Token.char c).size) (closerOf c :: owed) rest) := by
  rw [splitClosed.eq_def]
  simp [opens, keepToken]

theorem splitClosed_closer {c : Char} (closes : isCloser c = true) (expected : Char) (outer : List Char) :
    splitClosed unclosed offset (expected :: outer) (.char c :: rest) =
      if expected = c then
        if outer.isEmpty then .ok ([], rest)
        else keepToken (.char c) (splitClosed unclosed (offset + (Token.char c).size) outer rest)
      else .error (.unbalancedBrackets c offset) := by
  rw [splitClosed.eq_def]
  simp [isOpener_of_isCloser closes, closes, keepToken]

/-- What is cut off closes all that is owed but the outermost bracket, and that one follows. -/
theorem splitClosed_sound (left : List Char) {last : Char} {row : List Token}
    (split : splitClosed unclosed offset (left ++ [last]) row = .ok (inside, after)) :
    row = inside ++ .char last :: after ∧ owedAfter left (brackets inside) = some [] := by
  induction row generalizing offset left inside with
  | nil => simp [splitClosed] at split
  | cons token rest ih =>
    rcases token_kinds token with plain | ⟨c, rfl, opens⟩ | ⟨c, rfl, closes⟩
    · rw [splitClosed_plain plain, keepToken_ok] at split
      obtain ⟨part, rfl, split⟩ := split
      obtain ⟨rfl, read⟩ := ih left split
      exact ⟨rfl, by rwa [owedAfter_plain plain]⟩
    · rw [splitClosed_opener opens, keepToken_ok] at split
      obtain ⟨part, rfl, split⟩ := split
      obtain ⟨rfl, read⟩ := ih (closerOf c :: left) split
      exact ⟨rfl, by rwa [owedAfter_opener opens]⟩
    · cases left with
      | nil =>
        rw [List.nil_append, splitClosed_closer closes] at split
        split_ifs at split with same
        · cases split
          exact ⟨by rw [same, List.nil_append], rfl⟩
        · exact absurd rfl ‹¬ _›
      | cons expected left =>
        rw [List.cons_append, splitClosed_closer closes] at split
        split_ifs at split with same none
        · simp at none
        · subst same
          obtain ⟨part, rfl, kept⟩ := keepToken_ok.mp split
          obtain ⟨rfl, read⟩ := ih left kept
          exact ⟨rfl, (owedAfter_closer closes).mpr ⟨left, rfl, read⟩⟩

theorem splitClosed_complete (left : List Char) {last : Char} (closes : isCloser last = true)
    (read : owedAfter left (brackets inside) = some []) :
    splitClosed unclosed offset (left ++ [last]) (inside ++ .char last :: after) = .ok (inside, after) := by
  induction inside generalizing offset left with
  | nil =>
    cases read
    rw [List.nil_append, List.nil_append, splitClosed_closer closes, if_pos rfl]
    rfl
  | cons token part ih =>
    rw [List.cons_append]
    rcases token_kinds token with plain | ⟨c, rfl, opens⟩ | ⟨c, rfl, closing⟩
    · rw [owedAfter_plain plain] at read
      rw [splitClosed_plain plain, keepToken_ok]
      exact ⟨part, rfl, ih left read⟩
    · rw [owedAfter_opener opens] at read
      rw [splitClosed_opener opens, keepToken_ok]
      exact ⟨part, rfl, ih (closerOf c :: left) read⟩
    · obtain ⟨outer, rfl, later⟩ := (owedAfter_closer closing).mp read
      rw [List.cons_append, splitClosed_closer closing, if_pos rfl, if_neg (by simp), keepToken_ok]
      exact ⟨part, rfl, ih outer later⟩

/-- A group is cut off exactly where its balanced inside ends at the partner of its bracket. -/
theorem splitGroup_ok {c : Char} {row : List Token} :
    splitGroup c offset row = .ok (inside, after) ↔ row = inside ++ .char (closerOf c) :: after ∧ Balanced inside := by
  constructor
  · exact splitClosed_sound []
  · rintro ⟨rfl, balanced⟩
    exact splitClosed_complete [] (isCloser_closerOf c) balanced

theorem splitClosed_error {row : List Token} {error : PatchError}
    (split : splitClosed unclosed offset owed row = .error error) :
    error = unclosed ∨ ∃ bracket place, error = .unbalancedBrackets bracket place := by
  have kept : ∀ {token : Token} {split : Except PatchError (List Token × List Token)},
      keepToken token split = .error error → split = .error error := by
    intro token split failed
    cases split with
    | error other =>
      cases failed
      rfl
    | ok parts => cases failed
  induction row generalizing offset owed with
  | nil =>
    cases split
    exact .inl rfl
  | cons token rest ih =>
    rcases token_kinds token with plain | ⟨c, rfl, opens⟩ | ⟨c, rfl, closes⟩
    · rw [splitClosed_plain plain] at split
      exact ih (kept split)
    · rw [splitClosed_opener opens] at split
      exact ih (kept split)
    · cases owed with
      | nil =>
        rw [splitClosed.eq_def] at split
        simp only [isOpener_of_isCloser closes, closes, Bool.false_eq_true, if_false, if_true] at split
        cases split
        exact .inr ⟨_, _, rfl⟩
      | cons expected outer =>
        rw [splitClosed_closer closes] at split
        split_ifs at split
        · exact ih (kept split)
        · cases split
          exact .inr ⟨_, _, rfl⟩

/-- A bracket that is no longer owed at the end has been closed on the way. -/
theorem exists_closer (left base : List Char) {out : List Char} {last : Char} {row : List Token}
    (read : owedAfter (left ++ last :: base) (brackets row) = some out) (paid : out.length ≤ base.length) :
    ∃ inside after, row = inside ++ .char last :: after ∧ owedAfter left (brackets inside) = some [] := by
  induction row generalizing left with
  | nil =>
    cases read
    simp only [List.length_append, List.length_cons] at paid
    omega
  | cons token rest ih =>
    rcases token_kinds token with plain | ⟨c, rfl, opens⟩ | ⟨c, rfl, closes⟩
    · rw [owedAfter_plain plain] at read
      obtain ⟨inside, after, rfl, inner⟩ := ih left read
      exact ⟨token :: inside, after, rfl, by rwa [owedAfter_plain plain]⟩
    · rw [owedAfter_opener opens] at read
      obtain ⟨inside, after, rfl, inner⟩ := ih (closerOf c :: left) read
      exact ⟨.char c :: inside, after, rfl, by rwa [owedAfter_opener opens]⟩
    · obtain ⟨outer, owes, later⟩ := (owedAfter_closer closes).mp read
      cases left with
      | nil =>
        obtain ⟨rfl, rfl⟩ := List.cons.inj owes
        exact ⟨[], rest, rfl, rfl⟩
      | cons expected left =>
        obtain ⟨rfl, rfl⟩ := List.cons.inj owes
        obtain ⟨inside, after, rfl, inner⟩ := ih left later
        exact ⟨.char expected :: inside, after, rfl, (owedAfter_closer closes).mpr ⟨left, rfl, inner⟩⟩

/-- A balanced row that starts with an opening bracket starts with its group. -/
theorem exists_group {c : Char} (opens : isOpener c = true) {row : List Token} (balanced : Balanced (.char c :: row)) :
    ∃ inside after, row = inside ++ .char (closerOf c) :: after ∧ Balanced inside := by
  rw [Balanced, owedAfter_opener opens] at balanced
  exact exists_closer [] [] balanced (Nat.le_refl 0)

/-- Where no group can be cut off, brackets do not pair up. -/
theorem splitGroup_error {c : Char} {row : List Token} {error : PatchError} (opens : isOpener c = true)
    (split : splitGroup c offset row = .error error) :
    (∃ bracket place, error = .unbalancedBrackets bracket place) ∧ ¬ Balanced (.char c :: row) := by
  constructor
  · rcases splitClosed_error split with rfl | told
    · exact ⟨_, _, rfl⟩
    · exact told
  · intro balanced
    obtain ⟨inside, after, rfl, inner⟩ := exists_group opens balanced
    rw [splitGroup_ok.mpr ⟨rfl, inner⟩] at split
    cases split

end

end FrameGraph.Text
