import FrameGraph.Proofs.Text.Headings

/-! # The first entry point is found

Reading a header keeps the last two words and the pieces in front of the parameter list; together they say what the
tokens read so far say. From the marks whose headers declare something else nothing is missed, since a header that
starts inside another one ends where that one ends and declares nothing that it does not.
-/

namespace FrameGraph

namespace Text

/-! ## The pieces of a header -/

/-- The scan has read `done` behind the mark. -/
structure HeaderScan.Reads (mark done : List Token) (scan : HeaderScan) : Prop where
  seen : scan.seen = mark ++ done
  last : ∀ word, scan.last = some word ↔ LastWord word done
  words : ∀ former word, scan.previous = some former ∧ scan.last = some word ↔ LastWords former word done
  cut : ∀ word, scan.last = some word →
    ∃ front, scan.lead = mark ++ front ∧ done = front ++ .word word :: scan.gap ∧
      ∀ token ∈ scan.gap, token.isQuiet = true

namespace HeaderScan

variable {mark done : List Token} {scan : HeaderScan}

theorem reads_start (mark : List Token) : (start mark).Reads mark [] where
  seen := rfl
  last word := by simp [start, LastWord, EndsIn]
  words former word := by simp [start, LastWords, EndsIn]
  cut word held := by cases held

theorem Reads.word (reads : scan.Reads mark done) (text : List Char) :
    (scan.word text).Reads mark (done ++ [.word text]) where
  seen := by
    rw [← List.append_assoc, ← reads.seen]
    rfl
  last word := by
    rw [LastWord, endsIn_word rfl]
    simp [HeaderScan.word, eq_comm]
  words former word := by
    rw [LastWords, endsIn_word rfl, ← reads.last former]
    simp [HeaderScan.word, and_comm, eq_comm]
  cut word held := by
    cases held
    exact ⟨done, reads.seen, rfl, by simp [HeaderScan.word]⟩

theorem seen_pass (scan : HeaderScan) (token : Token) : (scan.pass token).seen = scan.seen ++ [token] := by
  cases scan with
  | mk lead previous last gap => cases last <;> simp [pass, seen]

theorem Reads.pass (reads : scan.Reads mark done) {token : Token} (quiet : token.isQuiet = true) :
    (scan.pass token).Reads mark (done ++ [token]) where
  seen := by rw [seen_pass, reads.seen, List.append_assoc]
  last word := by
    have bare : ∀ text, token ≠ .word text := by
      rintro text rfl
      cases quiet
    refine Iff.trans ?_ (endsIn_snoc bare).symm
    rw [quiet, eq_self, true_and]
    exact reads.last word
  words former word := by
    have bare : ∀ text, token ≠ .word text := by
      rintro text rfl
      cases quiet
    have keeps : (scan.pass token).previous = if token.isGap then scan.previous else none := by
      cases token with
      | word text => cases quiet
      | comment text => rfl
      | char c => rfl
    refine Iff.trans ?_ (endsIn_snoc bare).symm
    rw [keeps]
    cases gap : token.isGap with
    | true => exact (reads.words former word).trans ⟨fun holds => ⟨rfl, holds⟩, fun holds => holds.2⟩
    | false => simp
  cut word held := by
    obtain ⟨front, lead, split, inside⟩ := reads.cut word held
    refine ⟨front, lead, by simp [split, HeaderScan.pass], fun u member => ?_⟩
    rcases List.mem_append.mp member with member | member
    · exact inside u member
    · exact List.mem_singleton.mp member ▸ quiet

theorem Reads.group (reads : scan.Reads mark done) (inside : List Token) :
    (scan.group inside).Reads mark (done ++ Text.group '(' inside) where
  seen := by
    rw [← List.append_assoc, ← reads.seen]
    simp [HeaderScan.group, HeaderScan.seen, Text.group, closerOf]
  last word := by
    rw [Text.group, ← List.append_assoc, LastWord, endsIn_snoc (by simp)]
    simp [HeaderScan.group, Token.isQuiet, isBracket, isCloser, closerOf]
  words former word := by
    rw [Text.group, ← List.append_assoc, LastWords, endsIn_snoc (by simp)]
    simp [HeaderScan.group, Token.isGap, isSeparator, closerOf]
  cut word held := by cases held

theorem Reads.declares (reads : scan.Reads mark done) (name : String) :
    scan.declares name = true ↔ Heralds name.toList done := by
  rw [Heralds, ← reads.words]
  simp [HeaderScan.declares]

end HeaderScan

/-! ## What a header is read as -/

/-- What reading a header says about the row behind the stage mark. -/
def Tells (stage : Stage) (name : String) (row : List Token) : Except PatchError Header → Prop
  | .ok (.found entry) =>
    entry.before = [] ∧ entry.tokens = markTokens stage ++ row ∧ entry.DeclaresFn stage name
  | .ok (.other covered after) =>
    ∃ header stop, covered = markTokens stage ++ header ++ stop ∧ row = header ++ stop ++ after ∧ IsHeader header ∧
      ((stop = [] ∧ after = []) ∨ stop = [.char ';'] ∨
        ∃ inside, stop = group '\x7b' inside ∧ Balanced inside ∧ ¬ Declares name.toList header)
  | .error error => (∃ bracket offset, error = .unbalancedBrackets bracket offset) ∧ ¬ Balanced row

theorem not_balanced_closer {row : List Token} (balanced : Balanced row) {c : Char} (closes : isCloser c = true)
    (rest : List Token) : ¬ Balanced (row ++ .char c :: rest) := by
  rw [balanced.append_iff, Balanced, owedAfter_closer closes]
  simp

theorem isStop_char {c : Char} (opens : isOpener c = false) (other : c ≠ ';') : (Token.char c).isStop = false := by
  simp only [isOpener, Bool.or_eq_false_iff, beq_eq_false_iff_ne] at opens
  simp [Token.isStop, opens.2, other]

theorem eq_of_isOpener {c : Char} (opens : isOpener c = true) (other : c ≠ '(') : c = '\x7b' := by
  simpa [isOpener, other] using opens

section

variable {stage : Stage} {name : String} {done params trailer : List Token} {scan : HeaderScan}

/-- The pieces are those of a declaration once the body is found. -/
theorem declaresFn_of_reads (reads : scan.Reads (markTokens stage) done) (balanced : Balanced done)
    (fresh : Fresh name done) (heralds : Heralds name.toList done) (inner : Balanced params)
    (header : IsHeader (done ++ group '(' params ++ trailer)) {inside : List Token} (body : Balanced inside)
    (after : List Token) :
    let entry : EntryPoint := ⟨[], scan.lead, scan.last.getD [], scan.gap, params, trailer, inside, after⟩
    entry.headerTokens = markTokens stage ++ (done ++ group '(' params ++ trailer) ∧ entry.DeclaresFn stage name := by
  intro entry
  have last := ((reads.words ['f', 'n'] name.toList).mpr heralds).2
  obtain ⟨front, lead, split, quiet⟩ := reads.cut _ last
  obtain ⟨left, gap, same, lastFn, inGap⟩ := heralds
  obtain ⟨rfl, -, rfl⟩ := lastWord_unique (split.symm.trans same) quiet fun token member =>
    isQuiet_of_isGap (inGap token member)
  have pieces : entry.headerTokens = markTokens stage ++ (done ++ group '(' params ++ trailer) := by
    simp [entry, EntryPoint.headerTokens, lead, last, split, group, closerOf]
  rw [split] at balanced fresh
  refine ⟨pieces, ⟨⟨front, lead, lastFn, fresh.left⟩, ?_, by simp [entry, last], inGap, inner, ?_, body⟩⟩
  · change Balanced scan.lead
    rw [lead]
    exact (balanced_markTokens stage).append ((balanced_append_plain (plain_of_gap inGap)).mp balanced)
  · rw [pieces]
    exact (isHeader_markTokens stage).append header

theorem readTrailer_tells (offset : Nat) (reads : scan.Reads (markTokens stage) done) (balanced : Balanced done)
    (fresh : Fresh name done) (heralds : Heralds name.toList done) (inner : Balanced params)
    (header : IsHeader (done ++ group '(' params ++ trailer)) (tokens : List Token) :
    Tells stage name (done ++ group '(' params ++ trailer ++ tokens)
      (readTrailer offset scan params trailer tokens) := by
  have read : ∀ trailer, scan.seen ++ .char '(' :: params ++ .char ')' :: trailer =
      markTokens stage ++ (done ++ group '(' params ++ trailer) := by
    intro trailer
    simp [reads.seen, group, closerOf]
  fun_induction readTrailer offset scan params trailer tokens with
  | case1 offset trailer =>
    exact ⟨_, [], by rw [read, List.append_nil], by simp, header, .inl ⟨rfl, rfl⟩⟩
  | case2 offset trailer rest c opens error failed =>
    obtain ⟨told, unbalanced⟩ := splitGroup_error opens failed
    exact ⟨told, header.balanced.append_iff.not.mpr unbalanced⟩
  | case3 offset trailer rest inside after opens found shorter ih =>
    obtain ⟨rfl, balanced'⟩ := splitGroup_ok.mp found
    have longer := ih (by simpa [group, closerOf] using header.append (isHeader_group balanced'))
    simpa [group, closerOf] using longer
  | case4 offset trailer rest c opens inside after found shorter other =>
    obtain rfl := eq_of_isOpener opens other
    obtain ⟨rfl, balanced'⟩ := splitGroup_ok.mp found
    obtain ⟨pieces, declares⟩ := declaresFn_of_reads reads balanced fresh heralds inner header balanced' after
    exact ⟨rfl, by rw [EntryPoint.tokens_eq, pieces]; simp [closerOf], declares⟩
  | case5 offset trailer rest c opens closes =>
    exact ⟨⟨c, offset, rfl⟩, not_balanced_closer header.balanced closes rest⟩
  | case6 offset trailer rest covered _ _ =>
    exact ⟨_, [.char ';'], by rw [← read], by simp, header, .inr (.inl rfl)⟩
  | case7 offset trailer rest c opens closes other ih =>
    have running := isHeader_plain _ (bracket?_char (eq_false_of_ne_true opens) (eq_false_of_ne_true closes))
      (isStop_char (eq_false_of_ne_true opens) other)
    have longer := ih (by simpa using header.append running)
    simpa using longer
  | case8 offset trailer token rest bare ih =>
    have running : IsHeader [token] := by
      cases token with
      | char c => exact absurd rfl (bare c)
      | word text => exact isHeader_plain _ rfl rfl
      | comment text => exact isHeader_plain _ rfl rfl
    have longer := ih (by simpa using header.append running)
    simpa using longer

theorem readHeader_tells (offset : Nat) (reads : scan.Reads (markTokens stage) done) (header : IsHeader done)
    (fresh : Fresh name done) (tokens : List Token) :
    Tells stage name (done ++ tokens) (readHeader name offset scan tokens) := by
  fun_induction readHeader name offset scan tokens generalizing done with
  | case1 offset scan =>
    exact ⟨done, [], by rw [reads.seen, List.append_nil], by simp, header, .inl ⟨rfl, rfl⟩⟩
  | case2 offset scan rest text ih =>
    have longer := ih (reads.word text) (header.append (isHeader_plain _ rfl rfl))
      (fresh.plain header.balanced (by simp [Token.bracket?]))
    simpa using longer
  | case3 offset scan rest text ih =>
    have longer := ih (reads.pass rfl) (header.append (isHeader_plain _ rfl rfl))
      (fresh.plain header.balanced (by simp [Token.bracket?]))
    simpa using longer
  | case4 offset scan rest c opens error failed =>
    obtain ⟨told, unbalanced⟩ := splitGroup_error opens failed
    exact ⟨told, header.balanced.append_iff.not.mpr unbalanced⟩
  | case5 offset scan rest inside after declares opens found shorter =>
    obtain ⟨rfl, inner⟩ := splitGroup_ok.mp found
    have heralds := (reads.declares name).mp declares
    have longer := readTrailer_tells (offset + 2 + byteSize inside) reads header.balanced fresh heralds inner
      (show IsHeader (done ++ group '(' inside ++ []) by simpa using header.append (isHeader_group inner)) after
    simpa [group, closerOf] using longer
  | case6 offset scan rest inside after other opens found shorter ih =>
    obtain ⟨rfl, inner⟩ := splitGroup_ok.mp found
    have longer := ih (reads.group inside) (header.append (isHeader_group inner))
      (fresh.group header.balanced inner ((reads.declares name).not.mp other))
    simpa [group, closerOf] using longer
  | case7 offset scan rest c opens inside after found shorter other =>
    obtain rfl := eq_of_isOpener opens other
    obtain ⟨rfl, inner⟩ := splitGroup_ok.mp found
    exact ⟨done, group '\x7b' inside, by simp [reads.seen, group, closerOf], by simp [group, closerOf], header,
      .inr (.inr ⟨inside, rfl, inner, fresh.not_declares⟩)⟩
  | case8 offset scan rest c opens closes =>
    exact ⟨⟨c, offset, rfl⟩, not_balanced_closer header.balanced closes rest⟩
  | case9 offset scan rest opens closes =>
    exact ⟨done, [.char ';'], by rw [reads.seen], by simp, header, .inr (.inl rfl)⟩
  | case10 offset scan rest c opens closes other ih =>
    have plain := bracket?_char (eq_false_of_ne_true opens) (eq_false_of_ne_true closes)
    have running := isHeader_plain _ plain (isStop_char (eq_false_of_ne_true opens) other)
    have quiet : (Token.char c).isQuiet = true := by simpa [Token.isQuiet, Token.bracket?] using plain
    have longer := ih (reads.pass quiet) (header.append running) (fresh.plain header.balanced (by simpa using plain))
    simpa using longer

end

/-! ## The first declaration -/

/-- What looking for an entry point says about the tokens. -/
def Settles (stage : Stage) (name : String) (row : List Token) : Except PatchError EntryPoint → Prop
  | .ok entry => entry.IsFirst stage name row
  | .error (.functionNotFound mark named) =>
    mark = stage.mark ∧ named = name ∧ Balanced row ∧
      ∀ front rest, row = front ++ rest → Balanced front → ¬ DeclaredAt stage name rest
  | .error (.unbalancedBrackets _ _) => ¬ Balanced row

end Text

open Text

namespace EntryPoint

variable {stage : Stage} {name : String} {part after : List Token}

/-- More tokens in front change nothing as long as no declaration starts in them. -/
theorem IsFirst.prepend {entry : EntryPoint} (first : entry.IsFirst stage name after) (top : Balanced part)
    (none : ∀ front rest, part ++ after = front ++ rest → Balanced front → DeclaredAt stage name rest →
      part.length ≤ front.length) : (entry.prepend part).IsFirst stage name (part ++ after) where
  lead := first.lead
  top_lead := first.top_lead
  name_eq := first.name_eq
  gap := first.gap
  params := first.params
  header := first.header
  body := first.body
  whole := by
    rw [first.whole]
    simp [tokens_eq, EntryPoint.prepend, headerTokens]
  top := top.append first.top
  first front rest split balanced declared := by
    obtain ⟨behind, rfl⟩ : part <+: front :=
      List.prefix_of_prefix_length_le ⟨_, rfl⟩ ⟨_, split.symm⟩ (none front rest split balanced declared)
    rw [List.append_assoc, List.append_cancel_left_eq] at split
    have inner := first.first behind rest split (top.append_iff.mp balanced) declared
    simpa [EntryPoint.prepend] using inner

end EntryPoint

namespace Text

section

variable {stage : Stage} {name : String} {part after : List Token}

theorem Settles.prepend {result : Except PatchError EntryPoint} (settles : Settles stage name after result)
    (top : Balanced part) (none : ∀ front rest, part ++ after = front ++ rest → Balanced front →
      DeclaredAt stage name rest → part.length ≤ front.length) :
    Settles stage name (part ++ after) (result.map (·.prepend part)) := by
  match result with
  | .ok entry => exact EntryPoint.IsFirst.prepend settles top none
  | .error (.functionNotFound mark named) =>
    obtain ⟨rfl, rfl, balanced, nowhere⟩ := settles
    refine ⟨rfl, rfl, top.append balanced, fun front rest split inner declared => ?_⟩
    obtain ⟨behind, rfl⟩ : part <+: front :=
      List.prefix_of_prefix_length_le ⟨_, rfl⟩ ⟨_, split.symm⟩ (none front rest split inner declared)
    rw [List.append_assoc, List.append_cancel_left_eq] at split
    exact nowhere behind rest split (top.append_iff.mp inner) declared
  | .error (.unbalancedBrackets _ _) => exact top.append_iff.not.mpr settles

/-- A declaration starts with the two tokens of the mark. -/
theorem DeclaredAt.mark {token : Token} {rest : List Token} (declared : DeclaredAt stage name (token :: rest)) :
    token = .char '@' ∧ rest.head? = some (.word stage.word.toList) := by
  obtain ⟨header, body, same, -⟩ := declared
  rw [markTokens, List.append_assoc, List.cons_append, List.cons.injEq] at same
  exact ⟨same.1, by rw [same.2]; rfl⟩

theorem none_of_plain {token : Token} (other : ¬ (token = .char '@' ∧ after.head? = some (.word stage.word.toList)))
    (front rest : List Token) (split : [token] ++ after = front ++ rest) (_ : Balanced front)
    (declared : DeclaredAt stage name rest) : [token].length ≤ front.length := by
  cases front with
  | cons token front => simp
  | nil =>
    rw [List.nil_append] at split
    subst split
    exact absurd declared.mark other

theorem none_of_group {c : Char} (opens : isOpener c = true) {inside : List Token} (inner : Balanced inside)
    (front rest : List Token) (split : group c inside ++ after = front ++ rest) (top : Balanced front)
    (declared : DeclaredAt stage name rest) : (group c inside).length ≤ front.length := by
  obtain rfl | ⟨behind, rfl, -⟩ := balanced_front opens inner split top
  · rw [List.nil_append] at split
    subst split
    obtain ⟨mark, -⟩ := declared.mark
    cases mark
    cases opens
  · simp

/-- A declaration that starts inside a header makes the header declare the name. -/
theorem declares_of_inside {header stop front rest : List Token} (isHeader : IsHeader header) (stops : Stops stop)
    (split : markTokens stage ++ (header ++ stop) = front ++ rest) (top : Balanced front)
    (inside : front.length ≤ (markTokens stage ++ header).length) (declared : DeclaredAt stage name rest) :
    Declares name.toList header ∧ ∃ body, stop = .char '\x7b' :: body := by
  match front with
  | [] =>
    obtain ⟨own, body, rfl, ownHeader, declares⟩ := declared
    rw [List.nil_append, List.append_assoc, List.append_cancel_left_eq] at split
    obtain ⟨rfl, rfl⟩ := IsHeader.unique split isHeader ownHeader stops (by simp [Stops, Token.isStop])
    exact ⟨declares, body, rfl⟩
  | [token] =>
    rw [markTokens, List.cons_append, List.cons_append, List.cons_append, List.cons.injEq] at split
    obtain ⟨-, rfl⟩ := split
    cases declared.mark.1
  | token :: word :: front =>
    have front_eq := List.append_inj (show _ = [token, word] ++ (front ++ rest) from split) rfl
    have top' : Balanced (markTokens stage ++ front) := front_eq.1 ▸ top
    refine declaredAt_suffix isHeader stops front_eq.2 ((balanced_markTokens stage).append_iff.mp top') ?_ declared
    simpa [markTokens] using inside

/-- A header that declares something else is passed over with all that starts in it. -/
theorem none_of_other {row covered : List Token} (told : Tells stage name row (.ok (.other covered after)))
    (front rest : List Token) (split : covered ++ after = front ++ rest) (top : Balanced front)
    (declared : DeclaredAt stage name rest) : covered.length ≤ front.length := by
  obtain ⟨header, stop, rfl, rfl, isHeader, ending⟩ := told
  by_contra shorter
  rw [List.append_assoc] at split
  by_cases within : front.length ≤ (markTokens stage ++ header).length
  · have stops : Stops (stop ++ after) := by
      rcases ending with ⟨rfl, rfl⟩ | rfl | ⟨inside, rfl, -⟩ <;> simp [Stops, Token.isStop, group]
    rw [List.append_assoc] at split
    obtain ⟨declares, body, open_⟩ := declares_of_inside isHeader stops split top within declared
    rcases ending with ⟨rfl, rfl⟩ | rfl | ⟨inside, rfl, -, other⟩
    · cases open_
    · cases open_
    · exact other declares
  · -- the front ends inside what stops the header, and only a whole group is balanced there
    obtain ⟨behind, rfl⟩ : markTokens stage ++ header <+: front :=
      List.prefix_of_prefix_length_le ⟨_, rfl⟩ ⟨_, split.symm⟩ (by omega)
    have full := ((isHeader_markTokens stage).append isHeader).balanced
    rw [List.append_assoc (markTokens stage ++ header), List.append_cancel_left_eq] at split
    simp only [List.length_append] at shorter within
    rcases ending with ⟨rfl, -⟩ | rfl | ⟨inside, rfl, inner, -⟩
    · simp at shorter
    · simp only [List.length_cons, List.length_nil] at shorter
      omega
    · obtain rfl | ⟨more, rfl, -⟩ := balanced_front rfl inner split (full.append_iff.mp top)
      · simp at within
      · simp only [List.length_append] at shorter
        omega

theorem balanced_of_other {row covered : List Token} (told : Tells stage name row (.ok (.other covered after))) :
    Balanced covered := by
  obtain ⟨header, stop, rfl, -, isHeader, ending⟩ := told
  refine ((isHeader_markTokens stage).append isHeader).balanced.append ?_
  rcases ending with ⟨rfl, -⟩ | rfl | ⟨inside, rfl, inner, -⟩
  · exact balanced_nil
  · exact balanced_plain rfl
  · exact inner.group rfl

theorem told_start (offset : Nat) (rest : List Token) {header : Except PatchError Header}
    (read : readHeader name (offset + byteSize (markTokens stage)) (.start (markTokens stage)) rest = header) :
    Tells stage name rest header := by
  rw [← read]
  exact readHeader_tells _ (HeaderScan.reads_start _) isHeader_nil (fresh_nil name) rest

/-- Looking from depth zero on finds the first declaration, or tells that there is none. -/
theorem findEntryFrom_settles (stage : Stage) (name : String) (offset : Nat) (row : List Token) :
    Settles stage name row (findEntryFrom stage name offset row) := by
  fun_induction findEntryFrom stage name offset row with
  | case1 offset =>
    refine ⟨rfl, rfl, balanced_nil, fun front rest split _ declared => ?_⟩
    obtain ⟨-, rfl⟩ := List.append_eq_nil_iff.mp split.symm
    obtain ⟨header, body, none, -⟩ := declared
    cases none
  | case2 offset rest c opens error failed =>
    obtain ⟨⟨bracket, place, rfl⟩, unbalanced⟩ := splitGroup_error opens failed
    exact unbalanced
  | case3 offset rest c opens inside after found shorter ih =>
    obtain ⟨rfl, inner⟩ := splitGroup_ok.mp found
    have longer := ih.prepend (inner.group opens) (none_of_group opens inner)
    simpa [group] using longer
  | case4 offset rest c opens closes =>
    exact not_balanced_closer balanced_nil closes rest
  | case5 offset rest c _ _ marked error mark read =>
    obtain ⟨rfl, next⟩ := marked
    obtain ⟨rest, rfl⟩ := List.head?_eq_some_iff.mp next
    obtain ⟨⟨bracket, place, rfl⟩, unbalanced⟩ := told_start offset rest read
    dsimp only
    split <;> rename_i same <;> cases read.symm.trans same
    exact (balanced_markTokens stage).append_iff.not.mpr unbalanced
  | case6 offset rest c _ _ marked entry mark read =>
    obtain ⟨rfl, next⟩ := marked
    obtain ⟨rest, rfl⟩ := List.head?_eq_some_iff.mp next
    obtain ⟨none, whole, declares⟩ := told_start offset rest read
    dsimp only
    split <;> rename_i same <;> cases read.symm.trans same
    exact ⟨declares, whole.symm, by rw [none]; exact balanced_nil, fun _ _ _ _ _ => by simp [none]⟩
  | case7 offset rest c _ _ marked covered after mark read shorter ih =>
    obtain ⟨rfl, next⟩ := marked
    obtain ⟨rest, rfl⟩ := List.head?_eq_some_iff.mp next
    have told := told_start offset rest read
    dsimp only
    split <;> rename_i same <;> cases read.symm.trans same
    have longer := ih.prepend (balanced_of_other told) (none_of_other told)
    obtain ⟨header, stop, rfl, rfl, -⟩ := told
    simpa [markTokens] using longer
  | case8 offset rest c opens closes other ih =>
    have plain := bracket?_char (eq_false_of_ne_true opens) (eq_false_of_ne_true closes)
    exact ih.prepend (balanced_plain plain) (none_of_plain (by simpa using other))
  | case9 offset token rest bare ih =>
    have plain : token.bracket? = none := by
      cases token with
      | char c => exact absurd rfl (bare c)
      | word text => rfl
      | comment text => rfl
    exact ih.prepend (balanced_plain plain) (none_of_plain fun mark => bare '@' mark.1)

end

/-! ## Characters and bytes -/

theorem utf8Size_append (a b : List Char) : utf8Size (a ++ b) = utf8Size a + utf8Size b := by
  induction a with
  | nil => simp [utf8Size]
  | cons c a ih => simp [utf8Size, ih, Nat.add_assoc]

theorem utf8Size_pos {text : List Char} (some : text ≠ []) : 0 < utf8Size text := by
  cases text with
  | nil => contradiction
  | cons c text =>
    have := c.utf8Size_pos
    simp only [utf8Size]
    omega

theorem utf8Size_brackets :
    '('.utf8Size = 1 ∧ ')'.utf8Size = 1 ∧ '\x7b'.utf8Size = 1 ∧ '\x7d'.utf8Size = 1 := by
  decide

theorem byteSize_eq (row : List Token) : byteSize row = utf8Size (render row) := by
  induction row with
  | nil => rfl
  | cons token row ih => rw [byteSize, render_cons, utf8Size_append, ih, Token.size]

theorem Closes.getLast?_eq {depth : Nat} {text : List Char} (closed : Closes (depth + 1) text) :
    text.getLast? = some '/' := by
  generalize same : depth + 1 = level at closed
  induction closed generalizing depth with
  | done => cases same
  | opening rest ih => simp [List.getLast?_cons, ih rfl]
  | @closing level text rest ih =>
    cases level with
    | zero =>
      cases rest
      rfl
    | succ level => simp [List.getLast?_cons, ih rfl]
  | other apart rest ih => rw [List.getLast?_cons_cons, ih rfl]

/-- In front of a word no token ends in a letter or an underscore. -/
theorem Token.EndsAt.last {token : Token} {rest : List Char} (ends : token.EndsAt rest) {d : Char}
    (next : rest.head? = some d) (word : isWordChar d = true) {c : Char} (last : token.chars.getLast? = some c) :
    isWordStart c = false := by
  cases token with
  | word text =>
    rw [(endsAt_word.mp ends).2 d next] at word
    cases word
  | char other =>
    cases last
    exact (endsAt_char.mp ends).1
  | comment body =>
    rcases endsAt_comment ends with ⟨text, rfl, -, stop⟩ | ⟨text, rfl, closed⟩ | ⟨-, rfl⟩
    · rw [stop d next] at word
      cases word
    · rw [Token.chars, List.getLast?_cons, List.getLast?_cons, closed.getLast?_eq] at last
      cases last
      rfl
    · cases next

/-- In front of a word no row ends in a letter or an underscore. -/
theorem Legible.last {row : List Token} {rest : List Char} (legible : Legible rest row) {d : Char}
    (next : rest.head? = some d) (word : isWordChar d = true) {c : Char} (last : (render row).getLast? = some c) :
    isWordStart c = false := by
  rcases List.eq_nil_or_concat row with rfl | ⟨row, token, rfl⟩
  · cases last
  · rw [List.concat_eq_append, legible_append] at legible
    obtain ⟨e, more, chars, -⟩ := legible.2.1
    have ends : token.EndsAt rest := legible.2.1
    refine ends.last next word ?_
    rw [List.concat_eq_append, render_append, render_cons, render_nil, List.append_nil, chars] at last
    rw [chars]
    simpa using last

/-- A word of a text stands alone. -/
theorem Legible.word {left right : List Token} {word : List Char} (legible : Legible [] (left ++ .word word :: right)) :
    isIdentifier word = true ∧ (∀ c, (render left).getLast? = some c → isWordStart c = false) ∧
      ∀ c, (render right).head? = some c → isWordChar c = false := by
  obtain ⟨before, ends, -⟩ := legible_append.mp legible
  rw [List.append_nil] at ends
  obtain ⟨spelled, stop⟩ := endsAt_word.mp ends
  refine ⟨spelled, fun c last => ?_, stop⟩
  cases word with
  | nil => cases spelled
  | cons d word =>
    exact before.last (d := d) rfl (isWordChar_of_isWordStart (isIdentifier_cons.mp spelled).1) last

end Text

namespace EntryPoint

/-- The offsets ascend, and only the name may touch the parameter list. -/
structure Span.Ordered (span : Span) (size : Nat) : Prop where
  start_lt : span.start < span.nameStart
  nameStart_lt : span.nameStart < span.nameEnd
  nameEnd_le : span.nameEnd ≤ span.paramsOpen
  paramsOpen_lt : span.paramsOpen < span.paramsClose
  paramsClose_lt : span.paramsClose < span.bodyOpen
  bodyOpen_lt : span.bodyOpen < span.bodyClose
  bodyClose_lt : span.bodyClose < size

/-- The mark and the name stand in the text at their offsets: no letter, digit or underscore continues them, and no
letter or underscore leads into the name. -/
structure Shows (entry : EntryPoint) (stage : Stage) (name : String) (text : List Char) : Prop where
  mark : ∃ front behind, text = front ++ stage.mark.toList ++ behind ∧ utf8Size front = entry.span.start ∧
    ∀ c, behind.head? = some c → isWordChar c = false
  name : ∃ front behind, text = front ++ name.toList ++ behind ∧ utf8Size front = entry.span.nameStart ∧
    (∀ c, front.getLast? = some c → isWordStart c = false) ∧ ∀ c, behind.head? = some c → isWordChar c = false

variable {entry : EntryPoint} {stage : Stage} {name : String} {text : List Char}

/-- The tokens around the word of the mark. -/
theorem IsFirst.mark_eq {row : List Token} (first : entry.IsFirst stage name row) :
    ∃ right, row = (entry.before ++ [.char '@']) ++ .word stage.word.toList :: right := by
  obtain ⟨front, lead, -⟩ := first.lead
  exact ⟨_, by rw [first.whole, tokens_eq, headerTokens_eq, lead]; simp [markTokens]; rfl⟩

/-- The tokens around the name. -/
theorem IsFirst.name_split {row : List Token} (first : entry.IsFirst stage name row) :
    ∃ right, row = (entry.before ++ entry.lead) ++ .word name.toList :: right := by
  exact ⟨_, by rw [first.whole, tokens_eq, headerTokens_eq, first.name_eq]; simp; rfl⟩

theorem ordered_span (first : entry.IsFirst stage name (Text.tokens text)) : entry.span.Ordered (utf8Size text) := by
  have whole := render_tokens text
  rw [first.whole, tokens_eq, headerTokens_eq] at whole
  have size := congrArg utf8Size whole
  have word : 0 < utf8Size entry.name := by
    obtain ⟨right, split⟩ := first.name_split
    rw [first.name_eq]
    exact utf8Size_pos (ne_nil_of_isIdentifier (Legible.word (split ▸ legible_tokens text)).1)
  have mark : 0 < utf8Size (render entry.lead) := by
    obtain ⟨front, lead, -⟩ := first.lead
    rw [lead]
    exact utf8Size_pos (by simp [markTokens, render, Token.chars])
  simp only [render_append, render_cons, utf8Size_append, Token.chars, utf8Size, utf8Size_brackets] at size
  constructor <;> simp only [span, byteSize_eq] <;> omega

theorem shows_of_isFirst (first : entry.IsFirst stage name (Text.tokens text)) : entry.Shows stage name text := by
  have legible := legible_tokens text
  have whole := render_tokens text
  constructor
  · obtain ⟨right, split⟩ := first.mark_eq
    rw [split] at legible whole
    refine ⟨render entry.before, render right, ?_, (byteSize_eq _).symm, legible.word.2.2⟩
    rw [← whole]
    simp [render_append, Token.chars, Stage.mark]
  · obtain ⟨right, split⟩ := first.name_split
    rw [split] at legible whole
    refine ⟨render (entry.before ++ entry.lead), render right, ?_, ?_, legible.word.2⟩
    · rw [← whole, render_append, render_cons, List.append_assoc]
      rfl
    · simp [span, byteSize_eq, render_append, utf8Size_append]

theorem tokens_split (entry : EntryPoint) :
    entry.tokens = entry.before ++ (entry.extract.tokens ++ entry.after) := by
  simp [tokens, EntryPoint.extract, headerTokens]

/-- Each piece is read back in front of the character that follows it. -/
theorem legible_iff (entry : EntryPoint) :
    Legible [] entry.extract.tokens ↔
      Legible entry.name entry.lead ∧ isIdentifier entry.name = true ∧
        (∀ c, (render entry.gap ++ ['(']).head? = some c → isWordChar c = false) ∧
        Legible ['('] entry.gap ∧ Legible [')'] entry.params ∧ Legible ['\x7b'] entry.trailer ∧
        Legible ['\x7d'] entry.body := by
  have bracket : ∀ {c : Char} {rest : List Char}, isBracket c = true → (Token.char c).EndsAt rest := by
    intro c rest bracket
    simp only [isBracket, isOpener, isCloser, Bool.or_eq_true, beq_iff_eq] at bracket
    rcases bracket with (rfl | rfl) | (rfl | rfl) <;> exact endsAt_char.mpr ⟨rfl, by simp⟩
  have first : ∀ {c : Char} {rest : List Char} {row : List Token}, Legible (c :: rest) row ↔ Legible [c] row :=
    ⟨fun legible => legible.follow (.inl rfl), fun legible => legible.follow (.inl rfl)⟩
  have name : ∀ {rest : List Char}, isIdentifier entry.name = true →
      (Legible (entry.name ++ rest) entry.lead ↔ Legible entry.name entry.lead) := by
    intro rest identifier
    have same := head_chars (ne_nil_of_isIdentifier identifier) rest
    exact ⟨fun legible => legible.follow (.inl same.symm), fun legible => legible.follow (.inl same)⟩
  have gap : ∀ rest, (render entry.gap ++ '(' :: rest).head? = (render entry.gap ++ ['(']).head? := by
    intro rest
    cases render entry.gap <;> rfl
  simp only [extract, tokens_eq, headerTokens_eq, List.nil_append, List.append_assoc, List.cons_append, legible_append,
    Legible, render_append, render_cons, render_nil, Token.chars, List.append_nil, endsAt_word, first, gap]
  constructor
  · rintro ⟨lead, ⟨identifier, stop⟩, gapL, -, params, -, trailer, -, body, -⟩
    exact ⟨(name identifier).mp lead, identifier, stop, gapL, params, trailer, body⟩
  · rintro ⟨lead, identifier, stop, gapL, params, trailer, body⟩
    exact ⟨(name identifier).mpr lead, ⟨identifier, stop⟩, gapL, bracket rfl, params, bracket rfl, trailer,
      bracket rfl, body, bracket rfl, trivial⟩

theorem legible_extract {text : List Char} (first : entry.IsFirst stage name (Text.tokens text)) :
    Legible [] entry.extract.tokens := by
  have legible := legible_tokens text
  rw [first.whole, tokens_split, legible_append, legible_append] at legible
  exact legible.2.1.alone

theorem stop_eq (entry : EntryPoint) : entry.span.stop = byteSize (entry.before ++ entry.extract.tokens) := by
  simp only [Span.stop, span, extract, tokens_eq, headerTokens_eq, byteSize_eq, render_append, render_cons, render_nil,
    utf8Size_append, Token.chars, utf8Size, utf8Size_brackets]
  omega

theorem isFirst_of_find {source : String} (found : find source stage name = .ok entry) :
    entry.IsFirst stage name (Text.tokens source.toList) := by
  have settles := findEntryFrom_settles stage name 0 (Text.tokens source.toList)
  rw [find] at found
  rwa [found] at settles

/-- In a text whose brackets have their partners the first declaration is found. -/
theorem find_eq_ok {source : String} (first : entry.IsFirst stage name (Text.tokens source.toList))
    (balanced : Balanced (Text.tokens source.toList)) : find source stage name = .ok entry := by
  have settles := findEntryFrom_settles stage name 0 (Text.tokens source.toList)
  rw [find]
  match found : findEntryFrom stage name 0 (Text.tokens source.toList) with
  | .ok other =>
    rw [found] at settles
    rw [EntryPoint.IsFirst.unique settles first]
  | .error (.functionNotFound mark named) =>
    rw [found] at settles
    have whole := first.whole
    rw [tokens_eq] at whole
    exact absurd (first.declaredAt _) (settles.2.2.2 _ _ whole first.top)
  | .error (.unbalancedBrackets bracket offset) =>
    rw [found] at settles
    exact absurd balanced settles

/-- What is found is the first declaration of the name under a mark of the stage at depth zero, in pieces that stand in
the text at ascending offsets; where none is found there is none, and all brackets have their partners. -/
theorem find_first (source : String) (stage : Stage) (name : String) :
    match EntryPoint.find source stage name with
    | .ok entry =>
      entry.IsFirst stage name (Text.tokens source.toList) ∧ entry.Shows stage name source.toList ∧
        entry.span.Ordered (utf8Size source.toList)
    | .error (.functionNotFound mark named) =>
      mark = stage.mark ∧ named = name ∧ Balanced (Text.tokens source.toList) ∧
        ∀ front rest, Text.tokens source.toList = front ++ rest → Balanced front → ¬ DeclaredAt stage name rest
    | .error (.unbalancedBrackets _ _) => ¬ Balanced (Text.tokens source.toList) := by
  have settles := findEntryFrom_settles stage name 0 (Text.tokens source.toList)
  rw [find]
  match found : findEntryFrom stage name 0 (Text.tokens source.toList) with
  | .ok entry =>
    rw [found] at settles
    exact ⟨settles, shows_of_isFirst settles, ordered_span settles⟩
  | .error (.functionNotFound mark named) =>
    rw [found] at settles
    exact settles
  | .error (.unbalancedBrackets bracket offset) =>
    rw [found] at settles
    exact settles

/-- Neither comments nor bodies of other functions are looked into. -/
example :
    let source := "/* @compute fn k() \x7b\x7d */ @compute fn a() \x7b @compute fn k() \x7b\x7d \x7d " ++
      "@compute fn k() \x7b\x7d"
    (find source .compute "k").toOption.map (·.span.start) = some 64 := by
  decide +kernel

end EntryPoint

end FrameGraph
