import FrameGraph.Proofs.Text.Balance
import FrameGraph.Text.EntryPoint

/-! # What a header declares

A header runs from a stage mark to the first `{` or `;` at depth zero. It declares the name of its first parameter list
that stands behind `fn` and a name: only brackets may not stand between the two words, and only comments, separators
and `@` between the name and the list. All of this is said by cutting the row of tokens into pieces, and every cut is
the only one of its kind; so an entry point is determined by the row, the stage and the name.
-/

namespace FrameGraph

namespace Text

/-! ## The last words of a row -/

/-- Neither a word nor a bracket. -/
def Token.isQuiet : Token → Bool
  | .word _ => false
  | .comment _ => true
  | .char c => !isBracket c

/-- A comment, a separator or `@`. -/
def Token.isGap : Token → Bool
  | .word _ => false
  | .comment _ => true
  | .char c => isSeparator c || c == '@'

/-- The row ends in `word` and tokens that are `passed`, and what stands in front of the word is as `front` says. -/
def EndsIn (passed : Token → Bool) (front : List Token → Prop) (word : List Char) (row : List Token) : Prop :=
  ∃ left gap, row = left ++ .word word :: gap ∧ front left ∧ ∀ token ∈ gap, passed token = true

/-- The last word of the row; no bracket stands behind it. -/
def LastWord : List Char → List Token → Prop := EndsIn Token.isQuiet fun _ => True

/-- The last two words of the row; no bracket stands between them, and nothing but comments, separators and `@` stands
behind them. -/
def LastWords (former : List Char) : List Char → List Token → Prop := EndsIn Token.isGap (LastWord former)

/-- A parameter list behind the row belongs to a function of this name. -/
def Heralds (name : List Char) : List Token → Prop := LastWords ['f', 'n'] name

theorem isQuiet_of_isGap {token : Token} (gap : token.isGap = true) : token.isQuiet = true := by
  cases token with
  | word text => cases gap
  | comment text => rfl
  | char c =>
    simp only [Token.isGap, isSeparator, Bool.or_eq_true, beq_iff_eq] at gap
    rcases gap with ((((rfl | rfl) | rfl) | rfl) | rfl) | rfl <;> decide

theorem bracket?_of_isQuiet {token : Token} (quiet : token.isQuiet = true) : token.bracket? = none := by
  cases token with
  | word text => rfl
  | comment text => rfl
  | char c => simpa [Token.isQuiet, Token.bracket?] using quiet

section

variable {passed : Token → Bool} {front : List Token → Prop} {word : List Char} {row : List Token}

/-- The token at the end of a row is the last of the word and its gap. -/
theorem snoc_eq {α : Type} {row left gap : List α} {token u : α} :
    row ++ [token] = left ++ u :: gap ↔
      (gap = [] ∧ left = row ∧ u = token) ∨ ∃ gap', gap = gap' ++ [token] ∧ row = left ++ u :: gap' := by
  rcases List.eq_nil_or_concat gap with rfl | ⟨gap, last, rfl⟩
  · rw [List.append_singleton_inj]
    constructor
    · rintro ⟨rfl, rfl⟩
      exact .inl ⟨rfl, rfl, rfl⟩
    · rintro (⟨-, rfl, rfl⟩ | ⟨gap', none, -⟩)
      · exact ⟨rfl, rfl⟩
      · simp at none
  · rw [List.concat_eq_append, ← List.cons_append, ← List.append_assoc, List.append_singleton_inj]
    constructor
    · rintro ⟨rfl, rfl⟩
      exact .inr ⟨gap, rfl, rfl⟩
    · rintro (⟨none, -⟩ | ⟨gap', same, rfl⟩)
      · simp at none
      · obtain ⟨rfl, rfl⟩ := List.append_singleton_inj.mp same
        exact ⟨rfl, rfl⟩

theorem endsIn_word {text : List Char} (apart : passed (.word text) = false) :
    EndsIn passed front word (row ++ [.word text]) ↔ word = text ∧ front row := by
  constructor
  · rintro ⟨left, gap, split, holds, inside⟩
    obtain ⟨rfl, rfl, same⟩ | ⟨gap, rfl, -⟩ := snoc_eq.mp split
    · exact ⟨Token.word.inj same, holds⟩
    · simp [inside (.word text) (by simp)] at apart
  · rintro ⟨rfl, holds⟩
    exact ⟨row, [], rfl, holds, by simp⟩

theorem endsIn_snoc {token : Token} (bare : ∀ text, token ≠ .word text) :
    EndsIn passed front word (row ++ [token]) ↔ passed token = true ∧ EndsIn passed front word row := by
  constructor
  · rintro ⟨left, gap, split, holds, inside⟩
    obtain ⟨-, -, same⟩ | ⟨gap, rfl, rfl⟩ := snoc_eq.mp split
    · exact absurd same.symm (bare word)
    · exact ⟨inside token (by simp), left, gap, rfl, holds, fun u member => inside u (by simp [member])⟩
  · rintro ⟨pass, left, gap, rfl, holds, inside⟩
    refine ⟨left, gap ++ [token], by simp, holds, ?_⟩
    simpa [or_imp, forall_and, pass] using inside

/-- What a row ends in stays when something stands in front of it. -/
theorem EndsIn.prepend {front' : List Token → Prop} (ends : EndsIn passed front word row) (before : List Token)
    (keeps : ∀ left, front left → front' (before ++ left)) : EndsIn passed front' word (before ++ row) := by
  obtain ⟨left, gap, rfl, holds, inside⟩ := ends
  exact ⟨before ++ left, gap, (List.append_assoc ..).symm, keeps left holds, inside⟩

/-- What a row ends in stands behind any token that is not passed. -/
theorem EndsIn.behind {x y : List Token} {token : Token} (shut : passed token = false)
    (bare : ∀ text, token ≠ .word text) (ends : EndsIn passed front word (x ++ token :: y)) :
    EndsIn passed (fun left => front (x ++ token :: left)) word y := by
  obtain ⟨left, gap, split, holds, inside⟩ := ends
  rw [List.append_cons] at split
  obtain ⟨more, first, rfl⟩ | ⟨behind, rfl, rfl⟩ := front_cases split
  · obtain ⟨rfl, -, same⟩ | ⟨gap, rfl, -⟩ := snoc_eq.mp first
    · exact absurd same.symm (bare word)
    · simp [inside token (by simp)] at shut
  · exact ⟨behind, gap, rfl, by simpa using holds, inside⟩

/-- A row has one last word, in one place. -/
theorem lastWord_unique {left left' gap gap' : List Token} {word word' : List Char}
    (same : left ++ .word word :: gap = left' ++ .word word' :: gap') (quiet : ∀ token ∈ gap, token.isQuiet = true)
    (quiet' : ∀ token ∈ gap', token.isQuiet = true) : left = left' ∧ word = word' ∧ gap = gap' := by
  obtain ⟨more, rfl, rfl⟩ | ⟨behind, rfl, rest⟩ := front_cases same
  · cases quiet' (.word word) (by simp)
  · cases behind with
    | nil =>
      rw [List.nil_append, List.cons.injEq, Token.word.injEq] at rest
      exact ⟨(List.append_nil _).symm, rest⟩
    | cons token behind =>
      rw [List.cons_append, List.cons.injEq] at rest
      obtain ⟨-, rfl⟩ := rest
      cases quiet (.word word') (by simp)

end

/-- The name and the gap behind it hold no brackets. -/
theorem plain_of_gap {gap : List Token} {word : List Char} (inside : ∀ token ∈ gap, token.isGap = true) :
    ∀ token ∈ .word word :: gap, token.bracket? = none := by
  intro token member
  rcases List.mem_cons.mp member with rfl | member
  · rfl
  · exact bracket?_of_isQuiet (isQuiet_of_isGap (inside token member))

theorem Heralds.prepend {name : List Char} {row : List Token} (heralds : Heralds name row) (before : List Token) :
    Heralds name (before ++ row) :=
  EndsIn.prepend heralds before fun _ last => EndsIn.prepend last before fun _ _ => trivial

/-- What is declared behind a group is declared without what stands in front of it. -/
theorem Heralds.behind_group {name : List Char} (x inside : List Token) {y : List Token}
    (heralds : Heralds name (x ++ group '(' inside ++ y)) : Heralds name y := by
  have shut : x ++ group '(' inside ++ y = (x ++ .char '(' :: inside) ++ .char ')' :: y := by
    simp [group, closerOf]
  rw [shut] at heralds
  obtain ⟨left, gap, rfl, last, inGap⟩ := EndsIn.behind rfl (by simp) heralds
  obtain ⟨left', gap', rfl, -, quiet⟩ := EndsIn.behind rfl (by simp) last
  exact ⟨_, gap, rfl, ⟨left', gap', rfl, trivial, quiet⟩, inGap⟩

/-! ## Headers -/

/-- `{` or `;`. -/
def Token.isStop : Token → Bool
  | .char c => c == '\x7b' || c == ';'
  | _ => false

/-- A row at depth zero that no `{` or `;` at depth zero ends. -/
structure IsHeader (row : List Token) : Prop where
  balanced : Balanced row
  running : ∀ front token rest, row = front ++ token :: rest → Balanced front → token.isStop = false

/-- Nothing is left, or a header ends here. -/
def Stops (row : List Token) : Prop := ∀ token, row.head? = some token → token.isStop = true

theorem isHeader_nil : IsHeader [] := ⟨balanced_nil, by simp⟩

theorem isHeader_plain (token : Token) (plain : token.bracket? = none) (running : token.isStop = false) :
    IsHeader [token] := by
  refine ⟨balanced_plain plain, fun front other rest split _ => ?_⟩
  obtain ⟨-, -, rfl⟩ | ⟨gap, -, none⟩ := snoc_eq.mp (show [] ++ [token] = front ++ other :: rest from split)
  · exact running
  · simp at none

theorem isHeader_group {inside : List Token} (balanced : Balanced inside) : IsHeader (group '(' inside) := by
  refine ⟨balanced.group rfl, fun front token rest split top => ?_⟩
  rw [← List.append_nil (group '(' inside)] at split
  obtain rfl | ⟨behind, -, none⟩ := balanced_front rfl balanced split top
  · obtain ⟨rfl, -⟩ := List.cons.inj split
    rfl
  · simp at none

namespace IsHeader

variable {a b : List Token}

theorem append (first : IsHeader a) (second : IsHeader b) : IsHeader (a ++ b) := by
  refine ⟨first.balanced.append second.balanced, fun front token rest split top => ?_⟩
  obtain ⟨more, rfl, -⟩ | ⟨behind, rfl, rfl⟩ := front_cases split
  · exact first.running front token more rfl top
  · exact second.running behind token rest rfl (first.balanced.append_iff.mp top)

/-- Up to a place at depth zero. -/
theorem left (whole : IsHeader (a ++ b)) (top : Balanced a) : IsHeader a := by
  refine ⟨top, ?_⟩
  rintro front token rest rfl inner
  exact whole.running front token (rest ++ b) (by simp) inner

/-- From a place at depth zero on. -/
theorem suffix (whole : IsHeader (a ++ b)) (top : Balanced a) : IsHeader b := by
  refine ⟨top.append_iff.mp whole.balanced, ?_⟩
  rintro front token rest rfl inner
  exact whole.running (a ++ front) token rest (List.append_assoc ..).symm (top.append inner)

/-- There is one place where the header of a row ends. -/
theorem unique {x y : List Token} (same : a ++ x = b ++ y) (first : IsHeader a) (second : IsHeader b) (stops : Stops x)
    (stops' : Stops y) : a = b ∧ x = y := by
  have shorter : ∀ {a b x y : List Token}, a ++ x = b ++ y → IsHeader a → IsHeader b → Stops x →
      ∀ more, b = a ++ more → more = [] := by
    rintro a - x y same first second stops more rfl
    cases more with
    | nil => rfl
    | cons token more =>
      rw [List.append_assoc, List.append_cancel_left_eq] at same
      have stop := stops token (by simp [same])
      rw [second.running a token more rfl first.balanced] at stop
      cases stop
  have equal : a = b := by
    obtain ⟨more, split, -⟩ | ⟨more, split, -⟩ := List.append_eq_append_iff.mp same
    · rw [split, shorter same first second stops more split, List.append_nil]
    · rw [split, shorter same.symm second first stops' more split, List.append_nil]
  subst equal
  exact ⟨rfl, List.append_cancel_left same⟩

end IsHeader

/-- The name and the gap behind it end no header. -/
theorem isHeader_name {word : List Char} {gap : List Token} (inside : ∀ token ∈ gap, token.isGap = true) :
    IsHeader (.word word :: gap) := by
  have rest : IsHeader gap := by
    induction gap with
    | nil => exact isHeader_nil
    | cons token gap ih =>
      obtain ⟨first, others⟩ := List.forall_mem_cons.mp inside
      refine (isHeader_plain _ (bracket?_of_isQuiet (isQuiet_of_isGap first)) ?_).append (ih others)
      cases token with
      | word text => rfl
      | comment text => rfl
      | char c =>
        simp only [Token.isGap, isSeparator, Bool.or_eq_true, beq_iff_eq] at first
        rcases first with ((((rfl | rfl) | rfl) | rfl) | rfl) | rfl <;> decide
  exact (isHeader_plain (.word word) rfl rfl).append rest

/-- The partner of an opening bracket is in one place. -/
theorem group_unique {c : Char} {inside inside' after after' : List Token}
    (same : inside ++ .char (closerOf c) :: after = inside' ++ .char (closerOf c) :: after')
    (balanced : Balanced inside) (balanced' : Balanced inside') : inside = inside' ∧ after = after' := by
  have first : splitGroup c 0 (inside ++ .char (closerOf c) :: after) = .ok (inside, after) :=
    splitGroup_ok.mpr ⟨rfl, balanced⟩
  have second : splitGroup c 0 (inside ++ .char (closerOf c) :: after) = .ok (inside', after') :=
    splitGroup_ok.mpr ⟨same, balanced'⟩
  rw [first] at second
  simpa using second

/-! ## Declarations -/

/-- A parameter list at depth zero behind `fn` and the name. -/
def Declares (name : List Char) (header : List Token) : Prop :=
  ∃ done params trailer, header = done ++ group '(' params ++ trailer ∧
    Balanced done ∧ Balanced params ∧ Heralds name done

/-- The tokens of a stage mark. -/
def markTokens (stage : Stage) : List Token := [.char '@', .word stage.word.toList]

/-- The row starts with the stage mark, and the header behind it declares the name and ends in `{`. -/
def DeclaredAt (stage : Stage) (name : String) (row : List Token) : Prop :=
  ∃ header body, row = markTokens stage ++ header ++ .char '\x7b' :: body ∧
    IsHeader header ∧ Declares name.toList header

theorem balanced_markTokens (stage : Stage) : Balanced (markTokens stage) := rfl

theorem isHeader_markTokens (stage : Stage) : IsHeader (markTokens stage) :=
  (isHeader_plain (.char '@') rfl rfl).append (isHeader_plain (.word stage.word.toList) rfl rfl)

theorem Declares.prepend {name : List Char} {header : List Token} (declares : Declares name header)
    {before : List Token} (top : Balanced before) : Declares name (before ++ header) := by
  obtain ⟨done, params, trailer, rfl, balanced, inner, heralds⟩ := declares
  exact ⟨before ++ done, params, trailer, by simp, top.append balanced, inner, heralds.prepend before⟩

/-- A header that declares the name has it declared wherever it is read from. -/
theorem declaredAt_suffix {stage : Stage} {name : String} {header front rest stop : List Token}
    (isHeader : IsHeader header) (stops : Stops stop) (split : header ++ stop = front ++ rest) (top : Balanced front)
    (inside : front.length ≤ header.length) (declared : DeclaredAt stage name rest) :
    Declares name.toList header ∧ ∃ body, stop = .char '\x7b' :: body := by
  obtain ⟨own, body, rfl, ownHeader, declares⟩ := declared
  obtain ⟨tail, rfl⟩ : front <+: header :=
    List.prefix_of_prefix_length_le ⟨_, split.symm⟩ ⟨_, rfl⟩ inside
  rw [List.append_assoc, List.append_cancel_left_eq] at split
  have one := IsHeader.unique split (isHeader.suffix top) ((isHeader_markTokens stage).append ownHeader) stops
    (by simp [Stops, Token.isStop])
  refine ⟨?_, body, one.2⟩
  rw [one.1]
  exact (declares.prepend (balanced_markTokens stage)).prepend top

/-! ## Parameter lists of other functions -/

/-- No parameter list in the row stands behind `fn` and the name. -/
def Fresh (name : String) (row : List Token) : Prop :=
  ∀ front rest, row = front ++ .char '(' :: rest → Balanced front → ¬ Heralds name.toList front

theorem fresh_nil (name : String) : Fresh name [] := by simp [Fresh]

theorem Fresh.append {name : String} {a b : List Token} (fresh : Fresh name a) (balanced : Balanced a)
    (behind : ∀ front rest, b = front ++ .char '(' :: rest → Balanced front → ¬ Heralds name.toList (a ++ front)) :
    Fresh name (a ++ b) := by
  intro front rest split top
  obtain ⟨more, rfl, -⟩ | ⟨front, rfl, rfl⟩ := front_cases split
  · exact fresh front more rfl top
  · exact behind front rest rfl (balanced.append_iff.mp top)

theorem Fresh.plain {name : String} {a b : List Token} (fresh : Fresh name a) (balanced : Balanced a)
    (plain : ∀ token ∈ b, token.bracket? = none) : Fresh name (a ++ b) := by
  refine fresh.append balanced fun front rest split _ => ?_
  cases plain (.char '(') (by simp [split])

theorem Fresh.left {name : String} {a b : List Token} (fresh : Fresh name (a ++ b)) : Fresh name a := by
  rintro front rest rfl top
  exact fresh front (rest ++ b) (by simp) top

/-- The first parameter list behind `fn` and the name is not in front of one that is. -/
theorem Fresh.length_le {name : String} {done done' x y : List Token} (fresh : Fresh name done)
    (same : done ++ x = done' ++ .char '(' :: y) (top : Balanced done') (heralds : Heralds name.toList done') :
    done.length ≤ done'.length := by
  obtain ⟨more, rfl, -⟩ | ⟨behind, rfl, -⟩ := front_cases same
  · exact absurd heralds (fresh done' more rfl top)
  · simp

theorem Fresh.group {name : String} {row inside : List Token} (fresh : Fresh name row) (balanced : Balanced row)
    (inner : Balanced inside) (other : ¬ Heralds name.toList row) : Fresh name (row ++ group '(' inside) := by
  refine fresh.append balanced fun front rest split top => ?_
  rw [← List.append_nil (Text.group '(' inside)] at split
  obtain rfl | ⟨behind, -, none⟩ := balanced_front rfl inner split top
  · rwa [List.append_nil]
  · simp at none

theorem Fresh.not_declares {name : String} {row : List Token} (fresh : Fresh name row) :
    ¬ Declares name.toList row := by
  rintro ⟨done, params, trailer, rfl, balanced, -, heralds⟩
  exact fresh done _ (by simp [Text.group]; rfl) balanced heralds

end Text

open Text

namespace EntryPoint

/-- The entry point as a declaration: its pieces are where the header of the stage mark has its first parameter list
behind `fn` and the name. -/
structure DeclaresFn (entry : EntryPoint) (stage : Stage) (name : String) : Prop where
  lead : ∃ front, entry.lead = markTokens stage ++ front ∧ LastWord ['f', 'n'] front ∧ Fresh name front
  top_lead : Balanced entry.lead
  name_eq : entry.name = name.toList
  gap : ∀ token ∈ entry.gap, token.isGap = true
  params : Balanced entry.params
  header : IsHeader entry.headerTokens
  body : Balanced entry.body

/-- The entry point is the first one in the row that declares the name for the stage. -/
structure IsFirst (entry : EntryPoint) (stage : Stage) (name : String) (row : List Token) : Prop
    extends entry.DeclaresFn stage name where
  whole : row = entry.tokens
  top : Balanced entry.before
  first : ∀ front rest, row = front ++ rest → Balanced front → DeclaredAt stage name rest →
    entry.before.length ≤ front.length

variable {entry other : EntryPoint} {stage : Stage} {name : String} {row : List Token}

theorem tokens_eq (entry : EntryPoint) :
    entry.tokens =
      entry.before ++ (entry.headerTokens ++ .char '\x7b' :: (entry.body ++ .char '\x7d' :: entry.after)) := by
  simp [tokens]

/-- The words in front of the parameter list, and the list. -/
theorem headerTokens_eq (entry : EntryPoint) :
    entry.headerTokens =
      entry.lead ++ .word entry.name :: entry.gap ++ .char '(' :: (entry.params ++ .char ')' :: entry.trailer) := by
  simp [headerTokens]

theorem headerTokens_group (entry : EntryPoint) :
    entry.headerTokens =
      entry.lead ++ .word entry.name :: entry.gap ++ group '(' entry.params ++ entry.trailer := by
  simp [headerTokens, group, closerOf]

theorem isHeader_headerTokens (lead : IsHeader entry.lead) (gap : ∀ token ∈ entry.gap, token.isGap = true)
    (params : Balanced entry.params) (trailer : IsHeader entry.trailer) : IsHeader entry.headerTokens := by
  rw [headerTokens_group]
  exact ((lead.append (isHeader_name gap)).append (isHeader_group params)).append trailer

namespace DeclaresFn

/-- The header behind the stage mark, cut at the parameter list. -/
theorem exists_done (declares : entry.DeclaresFn stage name) :
    ∃ done, entry.lead ++ .word entry.name :: entry.gap = markTokens stage ++ done ∧ Balanced done ∧
      Heralds name.toList done ∧ Fresh name done := by
  obtain ⟨front, lead, last, fresh⟩ := declares.lead
  have top := declares.top_lead
  rw [lead, (balanced_markTokens stage).append_iff] at top
  exact ⟨front ++ .word name.toList :: entry.gap, by simp [lead, declares.name_eq],
    (balanced_append_plain (plain_of_gap declares.gap)).mpr top, ⟨front, entry.gap, rfl, last, declares.gap⟩,
    fresh.plain top (plain_of_gap declares.gap)⟩

theorem declaredAt (declares : entry.DeclaresFn stage name) (rest : List Token) :
    DeclaredAt stage name (entry.headerTokens ++ .char '\x7b' :: rest) := by
  obtain ⟨done, split, balanced, heralds, -⟩ := declares.exists_done
  have header := declares.header
  rw [headerTokens_eq, split] at header ⊢
  rw [List.append_assoc] at header
  exact ⟨_, rest, by rw [List.append_assoc (markTokens stage)], header.suffix (balanced_markTokens stage), done,
    entry.params, entry.trailer, by simp [group, closerOf], balanced, declares.params, heralds⟩

theorem parts (declares : entry.DeclaresFn stage name) : IsHeader entry.lead ∧ IsHeader entry.trailer := by
  have header := declares.header
  rw [headerTokens_group, List.append_assoc, List.append_assoc] at header
  refine ⟨header.left declares.top_lead, ?_⟩
  have named : Balanced (.word entry.name :: entry.gap) :=
    (balanced_append_plain (a := []) (plain_of_gap declares.gap)).mpr balanced_nil
  exact ((header.suffix declares.top_lead).suffix named).suffix (declares.params.group rfl)

/-- A header declares a name in one way. -/
theorem unique (declares : entry.DeclaresFn stage name) (also : other.DeclaresFn stage name)
    {rest rest' : List Token}
    (same : entry.headerTokens ++ .char '\x7b' :: (entry.body ++ .char '\x7d' :: rest) =
      other.headerTokens ++ .char '\x7b' :: (other.body ++ .char '\x7d' :: rest')) :
    entry.lead = other.lead ∧ entry.name = other.name ∧ entry.gap = other.gap ∧ entry.params = other.params ∧
      entry.trailer = other.trailer ∧ entry.body = other.body ∧ rest = rest' := by
  have stops : ∀ row, Stops (.char '\x7b' :: row) := by simp [Stops, Token.isStop]
  obtain ⟨header, bodies⟩ := IsHeader.unique same declares.header also.header (stops _) (stops _)
  obtain ⟨body, after⟩ := group_unique (c := '\x7b') (List.cons.inj bodies).2 declares.body also.body
  obtain ⟨done, split, balanced, heralds, fresh⟩ := declares.exists_done
  obtain ⟨done', split', balanced', heralds', fresh'⟩ := also.exists_done
  have lists := header
  rw [headerTokens_eq, headerTokens_eq, split, split', List.append_assoc, List.append_assoc,
    List.append_cancel_left_eq] at lists
  -- neither parameter list stands in front of the other
  have lengths := Nat.le_antisymm (fresh.length_le lists balanced' heralds')
    (fresh'.length_le lists.symm balanced heralds)
  obtain ⟨rfl, behind⟩ := List.append_inj lists lengths
  obtain ⟨params, trailer⟩ := group_unique (c := '(') (List.cons.inj behind).2 declares.params also.params
  have quiet : ∀ {gap : List Token}, (∀ token ∈ gap, token.isGap = true) → ∀ token ∈ gap, token.isQuiet = true :=
    fun gap token member => isQuiet_of_isGap (gap token member)
  obtain ⟨lead, name, gap⟩ := lastWord_unique (split.trans split'.symm) (quiet declares.gap)
    (quiet also.gap)
  exact ⟨lead, name, gap, params, trailer, body, after⟩

end DeclaresFn

/-- There is one first entry point. -/
theorem IsFirst.unique (first : entry.IsFirst stage name row) (also : other.IsFirst stage name row) :
    entry = other := by
  have whole := first.whole
  have whole' := also.whole
  rw [tokens_eq] at whole whole'
  have lengths : entry.before.length = other.before.length :=
    Nat.le_antisymm (first.first _ _ whole' also.top (also.declaredAt _))
      (also.first _ _ whole first.top (first.declaredAt _))
  obtain ⟨before, same⟩ := List.append_inj (whole.symm.trans whole') lengths
  obtain ⟨lead, named, gap, params, trailer, body, after⟩ := first.toDeclaresFn.unique also.toDeclaresFn same
  cases entry
  cases other
  simp_all

end EntryPoint

end FrameGraph
