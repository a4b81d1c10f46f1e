import FrameGraph.Proofs.Text.Attribute
import FrameGraph.Proofs.Text.Finding

/-! # Editing by byte offsets

An edit can also be made on the bytes of the text: cut it at the offsets of an entry point and put the new parts
between the slices. A slice exists where its offsets ascend and fall between characters. For an entry point that was
found all of them do but one. The end of the stage mark is looked for by characters, and an attribute without a gap
behind the mark counts to it: the new attribute then comes behind that one, and where no gap follows up to the name,
there is no slice in front of the name.
-/

namespace FrameGraph

namespace Text

/-- Cut a text behind so many bytes; none if it is shorter or a character would be cut. -/
def splitBytes? : Nat → List Char → Option (List Char × List Char)
  | 0, text => some ([], text)
  | _ + 1, [] => none
  | size + 1, c :: rest =>
    if c.utf8Size ≤ size + 1 then
      (splitBytes? (size + 1 - c.utf8Size) rest).map fun (front, behind) => (c :: front, behind)
    else none

/-- The bytes from `start` up to `stop`; none unless the offsets ascend and fall between characters. -/
def slice? (text : List Char) (start stop : Nat) : Option (List Char) :=
  if start ≤ stop then do
    let (front, _) ← splitBytes? stop text
    let (_, part) ← splitBytes? start front
    return part
  else none

theorem splitBytes?_append (a b : List Char) : splitBytes? (utf8Size a) (a ++ b) = some (a, b) := by
  induction a with
  | nil => cases b <;> rfl
  | cons c a ih =>
    have positive := c.utf8Size_pos
    obtain ⟨size, split⟩ : ∃ size, utf8Size (c :: a) = size + 1 :=
      ⟨utf8Size (c :: a) - 1, by simp only [utf8Size]; omega⟩
    have rest : size + 1 - c.utf8Size = utf8Size a := by
      simp only [utf8Size] at split
      omega
    have fits : c.utf8Size ≤ size + 1 := by
      simp only [utf8Size] at split
      omega
    rw [split, List.cons_append, splitBytes?, if_pos fits, rest, ih]
    rfl

theorem slice?_eq {text a b c : List Char} {start stop : Nat} (whole : text = a ++ b ++ c)
    (first : utf8Size a = start) (last : utf8Size (a ++ b) = stop) : slice? text start stop = some b := by
  subst whole first last
  have ascends : utf8Size a ≤ utf8Size (a ++ b) := by
    rw [utf8Size_append]
    omega
  rw [slice?, if_pos ascends, splitBytes?_append]
  simp [splitBytes?_append]

/-- A character of a stage mark, or one that extends it. -/
def isMarkChar (c : Char) : Bool := c == '@' || isWordChar c

theorem isMarkChar_of_isWordChar {c : Char} (word : isWordChar c = true) : isMarkChar c = true := by
  simp [isMarkChar, word]

theorem takeWhile_word {word : List Char} (spelled : isIdentifier word = true) (rest : List Char) :
    (word ++ rest).takeWhile isMarkChar = word ++ rest.takeWhile isMarkChar :=
  List.takeWhile_append_of_pos fun _ member => isMarkChar_of_isWordChar (isWordChar_of_mem spelled member)

/-- Looking for the end of the mark by characters is looking for it by tokens, up to the end of the row. -/
theorem takeWhile_isMarkChar {row : List Token} {rest : List Char} (legible : Legible rest row) :
    (render row ++ rest).takeWhile isMarkChar = render (row.takeWhile EntryPoint.extendsMark) ++
      if row.all EntryPoint.extendsMark then rest.takeWhile isMarkChar else [] := by
  induction row with
  | nil => simp
  | cons token row ih =>
    rw [render_cons, List.append_assoc, List.all_cons]
    cases token with
    | comment text =>
      obtain ⟨body, rfl⟩ := comment_starts legible.1
      rfl
    | word text =>
      have mark : EntryPoint.extendsMark (.word text) = true := rfl
      rw [Token.chars, takeWhile_word (endsAt_word.mp legible.1).1, ih legible.2, List.takeWhile_cons_of_pos mark,
        render_cons, mark, Bool.true_and, List.append_assoc]
      rfl
    | char c =>
      have plain := (endsAt_char.mp legible.1).1
      have same : isMarkChar c = EntryPoint.extendsMark (.char c) := by
        simp only [isWordStart, Bool.or_eq_false_iff] at plain
        simp [isMarkChar, EntryPoint.extendsMark, isWordChar, Char.isAlphanum, plain]
      cases mark : EntryPoint.extendsMark (.char c) with
      | false => simp [Token.chars, same, mark]
      | true => simp [Token.chars, same, mark, ih legible.2]

end Text

open Text

namespace EntryPoint

/-- The end of the stage mark, looked for by characters in the text from the mark on. -/
def Span.markEnd (span : Span) (rest : List Char) : Nat :=
  let run := rest.takeWhile isMarkChar
  if run.length = rest.length then span.nameStart else span.start + utf8Size run

/-- The text after an edit, made at byte offsets; none where a slice does not exist. -/
def Span.edit? (span : Span) (text : List Char) (patch : Patch) : Option (List Char) := do
  let rest ← slice? text span.start (utf8Size text)
  let front ← slice? text 0 (span.markEnd rest)
  let lead ← slice? text (span.markEnd rest) span.nameStart
  let name ← slice? text span.nameStart span.nameEnd
  let gap ← slice? text span.nameEnd (span.paramsOpen + 1)
  let params ← slice? text (span.paramsOpen + 1) span.paramsClose
  let trailer ← slice? text span.paramsClose (span.bodyOpen + 1)
  let body ← slice? text (span.bodyOpen + 1) span.bodyClose
  let after ← slice? text span.bodyClose (utf8Size text)
  let joint := if patch.parameters.isEmpty || (trim params).isEmpty then [] else [',', ' ']
  return front ++ attrText patch.attr ++ lead ++ (patch.newName.elim name String.toList) ++ gap ++
    (String.intercalate ", " patch.parameters).toList ++ joint ++ rename patch.identifiers (Text.tokens params) ++
    trailer ++ patch.prologue.toList ++ rename patch.identifiers (Text.tokens body) ++ after

section

variable {entry : EntryPoint} {stage : Stage} {name : String} {text : List Char}

/-- The text from the mark on. -/
def fromMark (entry : EntryPoint) : List Char :=
  render entry.lead ++ (entry.name ++ (render entry.gap ++ '(' :: (render entry.params ++ ')' ::
    (render entry.trailer ++ '\x7b' :: (render entry.body ++ '\x7d' :: render entry.after)))))

/-- The text in the order of the pieces. -/
theorem text_eq (first : entry.IsFirst stage name (Text.tokens text)) :
    text = render entry.before ++ entry.fromMark := by
  rw [← render_tokens text, first.whole, tokens_eq, headerTokens_eq]
  simp [fromMark, render_append, Token.chars]

theorem header_eq (entry : EntryPoint) :
    entry.header = render entry.lead ++ (entry.name ++ (render entry.gap ++ '(' ::
      (render entry.params ++ ')' :: render entry.trailer))) := by
  simp [header, headerTokens_eq, render_append, Token.chars]

/-- What the entry point keeps of the text, as slices of it. -/
structure Sliced (entry : EntryPoint) (text : List Char) : Prop where
  rest : slice? text entry.span.start (utf8Size text) = some entry.fromMark
  name : slice? text entry.span.nameStart entry.span.nameEnd = some entry.name
  gap : slice? text entry.span.nameEnd (entry.span.paramsOpen + 1) = some (render entry.gap ++ ['('])
  params : slice? text (entry.span.paramsOpen + 1) entry.span.paramsClose = some (render entry.params)
  trailer : slice? text entry.span.paramsClose (entry.span.bodyOpen + 1) =
    some (')' :: (render entry.trailer ++ ['\x7b']))
  body : slice? text (entry.span.bodyOpen + 1) entry.span.bodyClose = some (render entry.body)
  after : slice? text entry.span.bodyClose (utf8Size text) = some ('\x7d' :: render entry.after)
  header : slice? text entry.span.start entry.span.bodyOpen = some entry.header
  own : slice? text entry.span.start entry.span.stop = some (render entry.extract.tokens)

/-- The text in pieces that end where it is cut. -/
def pieces (entry : EntryPoint) : List (List Char) :=
  [render entry.before, render entry.lead, entry.name, render entry.gap ++ ['('], render entry.params,
    ')' :: render entry.trailer, ['\x7b'], render entry.body, ['\x7d'], render entry.after]

/-- The size of the first pieces. -/
def place (entry : EntryPoint) (count : Nat) : Nat := utf8Size (entry.pieces.take count).flatten

/-- Between two places are the pieces between them. -/
theorem slice?_place {first last : Nat} (ascends : first ≤ last) :
    slice? entry.pieces.flatten (entry.place first) (entry.place last) =
      some ((entry.pieces.take last).drop first).flatten := by
  have front : (entry.pieces.take last).take first = entry.pieces.take first := by
    rw [List.take_take, Nat.min_eq_left ascends]
  have parts : (entry.pieces.take first).flatten ++ ((entry.pieces.take last).drop first).flatten =
      (entry.pieces.take last).flatten := by
    rw [← List.flatten_append, ← front, List.take_append_drop]
  refine slice?_eq (c := (entry.pieces.drop last).flatten) ?_ rfl (congrArg utf8Size parts)
  rw [parts, ← List.flatten_append, List.take_append_drop]

/-- Every offset is a place. -/
theorem offsets_place (entry : EntryPoint) :
    entry.span.start = entry.place 1 ∧ entry.span.nameStart = entry.place 2 ∧ entry.span.nameEnd = entry.place 3 ∧
      entry.span.paramsOpen + 1 = entry.place 4 ∧ entry.span.paramsClose = entry.place 5 ∧
      entry.span.bodyOpen = entry.place 6 ∧ entry.span.bodyOpen + 1 = entry.place 7 ∧
      entry.span.bodyClose = entry.place 8 ∧ entry.span.stop = entry.place 9 := by
  simp only [place, pieces, span, Span.stop, byteSize_eq, List.take_succ_cons, List.take_zero, List.flatten_cons,
    List.flatten_nil, utf8Size_append, utf8Size, utf8Size_brackets]
  omega

theorem sliced (first : entry.IsFirst stage name (Text.tokens text)) : entry.Sliced text := by
  have whole : text = entry.pieces.flatten := by
    rw [text_eq first]
    simp [pieces, fromMark]
  have size : utf8Size text = entry.place 10 := congrArg utf8Size whole
  obtain ⟨start, nameStart, nameEnd, paramsOpen, paramsClose, bodyOpen, bodyIn, bodyClose, stop⟩ := entry.offsets_place
  have cut : ∀ {i j : Nat} {part : List Char}, i ≤ j → ((entry.pieces.take j).drop i).flatten = part →
      slice? text (entry.place i) (entry.place j) = some part := by
    rintro i j part ascends rfl
    rw [whole]
    exact slice?_place ascends
  constructor
  · rw [start, size]
    exact cut (by decide) (by simp [pieces, fromMark])
  · rw [nameStart, nameEnd]
    exact cut (by decide) (by simp [pieces])
  · rw [nameEnd, paramsOpen]
    exact cut (by decide) (by simp [pieces])
  · rw [paramsOpen, paramsClose]
    exact cut (by decide) (by simp [pieces])
  · rw [paramsClose, bodyIn]
    exact cut (by decide) (by simp [pieces])
  · rw [bodyIn, bodyClose]
    exact cut (by decide) (by simp [pieces])
  · rw [bodyClose, size]
    exact cut (by decide) (by simp [pieces])
  · rw [start, bodyOpen]
    exact cut (by decide) (by simp [pieces, header_eq])
  · rw [start, stop]
    exact cut (by decide) (by simp [pieces, extract, tokens_eq, headerTokens_eq, render_append, Token.chars])

/-- What extends the mark, and the name too where all of the header up to it does. -/
theorem takeWhile_fromMark (legible : Legible [] entry.extract.tokens) :
    ∃ more, entry.fromMark.takeWhile isMarkChar = render (entry.lead.takeWhile extendsMark) ++
      if entry.markMeetsName then entry.name ++ more else [] := by
  obtain ⟨leadL, identifier, -⟩ := entry.legible_iff.mp legible
  have same := head_chars (ne_nil_of_isIdentifier identifier)
  have run := takeWhile_isMarkChar (leadL.follow (.inl (same (render entry.gap ++ '(' :: (render entry.params ++
    ')' :: (render entry.trailer ++ '\x7b' :: (render entry.body ++ '\x7d' :: render entry.after)))))))
  rw [takeWhile_word identifier] at run
  exact ⟨_, run⟩

/-- The mark ends in front of the parameter list. -/
theorem markEnd_eq (entry : EntryPoint) :
    entry.span.markEnd entry.fromMark = entry.span.start + utf8Size (entry.fromMark.takeWhile isMarkChar) := by
  refine if_neg fun all => ?_
  have whole := List.takeWhile_prefix isMarkChar |>.eq_of_length all
  have member : '(' ∈ entry.fromMark := by simp [fromMark]
  have mark := List.mem_takeWhile_imp (whole.symm ▸ member : '(' ∈ entry.fromMark.takeWhile isMarkChar)
  cases mark

/-- Editing by byte offsets is editing the pieces. -/
theorem edit?_eq (first : entry.IsFirst stage name (Text.tokens text)) (patch : Patch) :
    entry.span.edit? text patch = (entry.edit? patch).map String.toList := by
  have slices := sliced first
  have legible := legible_extract first
  obtain ⟨-, identifier, -, -, paramsL, -, bodyL⟩ := entry.legible_iff.mp legible
  obtain ⟨more, run⟩ := takeWhile_fromMark legible
  have stop := entry.markEnd_eq
  rw [run] at stop
  rw [Span.edit?, slices.rest, Option.bind_eq_bind, Option.bind_some]
  cases meets : entry.markMeetsName with
  | true =>
    -- the slice in front of the name would end before it starts
    have all : entry.lead.takeWhile extendsMark = entry.lead :=
      List.takeWhile_eq_self_iff.mpr (List.all_eq_true.mp meets)
    have late : ¬ entry.span.markEnd entry.fromMark ≤ entry.span.nameStart := by
      have word := utf8Size_pos (ne_nil_of_isIdentifier identifier)
      rw [stop, all, if_pos meets, utf8Size_append, utf8Size_append]
      simp only [span, byteSize_eq]
      omega
    have none : slice? text (entry.span.markEnd entry.fromMark) entry.span.nameStart = none := if_neg late
    cases slice? text 0 (entry.span.markEnd entry.fromMark) <;> simp [none, edit?, meets]
  | false =>
    rw [meets, if_neg Bool.false_ne_true, List.append_nil] at stop
    have cut : render entry.lead =
        render (entry.lead.takeWhile extendsMark) ++ render (entry.lead.dropWhile extendsMark) := by
      rw [← render_append, List.takeWhile_append_dropWhile]
    have whole := text_eq first
    have front : slice? text 0 (entry.span.markEnd entry.fromMark) =
        some (render entry.before ++ render (entry.lead.takeWhile extendsMark)) := by
      refine slice?_eq (a := []) (by rw [whole, fromMark, cut]; simp; rfl) rfl ?_
      rw [stop, List.nil_append, utf8Size_append, span, byteSize_eq]
    have lead : slice? text (entry.span.markEnd entry.fromMark) entry.span.nameStart =
        some (render (entry.lead.dropWhile extendsMark)) := by
      refine slice?_eq (a := render entry.before ++ render (entry.lead.takeWhile extendsMark))
        (by rw [whole, fromMark, cut]; simp; rfl) ?_ ?_
      · rw [stop, utf8Size_append, span, byteSize_eq]
      · rw [List.append_assoc, ← cut, utf8Size_append, span, byteSize_eq, byteSize_eq]
    have named : patch.newName.elim entry.name String.toList = entry.patchedName patch := by
      unfold patchedName
      cases patch.newName <;> rfl
    have params := paramsL.alone.tokens_render
    have body := bodyL.alone.tokens_render
    simp only [front, lead, slices.name, slices.gap, slices.params, slices.trailer, slices.body, slices.after,
      Option.bind_some, params, body, edit?, meets]
    simp [named, apply, patchedLead_eq, patchedParams, patchedBody]

/-- The new attribute comes right behind the mark unless another one follows the mark without a gap. -/
theorem patchedLead_eq_iff (first : entry.IsFirst stage name (Text.tokens text)) {patch : Patch} {attr : String}
    (given : patch.attr = some attr) :
    entry.patchedLead patch = stage.mark.toList ++ ' ' :: attr.toList ++ render (entry.lead.drop 2) ↔
      entry.lead[2]? ≠ some (.char '@') := by
  obtain ⟨front, lead, last, -⟩ := first.lead
  have legible := (entry.legible_iff.mp (legible_extract first)).1
  rw [lead, legible_append] at legible
  -- what follows the word of the mark does not continue it
  have stop := (endsAt_word.mp legible.1.2.1).2
  have mark : stage.mark.toList = render (markTokens stage) := by
    simp [markTokens, Token.chars, Stage.mark]
  cases front with
  | nil =>
    obtain ⟨left, gap, none, -⟩ := last
    simp at none
  | cons token front =>
    have third : entry.lead[2]? = some token := by simp [lead, markTokens]
    have behind : entry.lead.drop 2 = token :: front := by simp [lead, markTokens]
    have taken : entry.lead.takeWhile extendsMark = markTokens stage ++ (token :: front).takeWhile extendsMark := by
      rw [lead, List.takeWhile_append_of_pos (by simp [markTokens, extendsMark])]
    have dropped : entry.lead.dropWhile extendsMark = (token :: front).dropWhile extendsMark := by
      rw [lead, List.dropWhile_append_of_pos (by simp [markTokens, extendsMark])]
    have tail : entry.patchedLead patch = stage.mark.toList ++ (render ((token :: front).takeWhile extendsMark) ++
        ' ' :: attr.toList ++ render ((token :: front).dropWhile extendsMark)) := by
      simp [patchedLead_eq, attrText, taken, dropped, given, mark, render_append]
    rw [tail, behind, third, List.append_assoc stage.mark.toList, List.append_cancel_left_eq]
    cases extends_ : extendsMark token with
    | false =>
      have other : token ≠ .char '@' := by
        rintro rfl
        cases extends_
      simp [extends_, other]
    | true =>
      obtain rfl : token = .char '@' := by
        cases token with
        | comment text => cases extends_
        | word text =>
          have spelled := (endsAt_word.mp legible.2.1).1
          cases text with
          | nil => cases spelled
          | cons c text =>
            have word := isWordChar_of_isWordStart (isIdentifier_cons.mp spelled).1
            rw [stop c (by simp [Token.chars])] at word
            cases word
        | char c =>
          have plain := stop c (by simp [Token.chars])
          simp only [isWordChar, Char.isAlphanum, Bool.or_eq_false_iff] at plain
          simpa [extendsMark, plain] using extends_
      simp [extends_, Token.chars]

end

/-- For an entry point that was found all parts of its text are slices at its offsets, and so is all that an edit keeps
unless everything between the mark and the name extends the mark. A new attribute comes right behind the mark, in
front of the rest of the header as it was, unless another attribute follows the mark without a gap. -/
theorem find_slices (source : String) (stage : Stage) (name : String) (entry : EntryPoint)
    (found : find source stage name = .ok entry) :
    slice? source.toList entry.span.start entry.span.stop = some (render entry.extract.tokens) ∧
    slice? source.toList entry.span.start entry.span.bodyOpen = some entry.header ∧
    slice? source.toList (entry.span.paramsOpen + 1) entry.span.paramsClose = some (render entry.params) ∧
    slice? source.toList (entry.span.bodyOpen + 1) entry.span.bodyClose = some (render entry.body) ∧
    ∀ patch : Patch,
      entry.span.edit? source.toList patch = (entry.edit? patch).map String.toList ∧
      (entry.span.edit? source.toList patch = none ↔ entry.markMeetsName = true) ∧
      ∀ attr, patch.attr = some attr →
        (entry.patchedLead patch = stage.mark.toList ++ ' ' :: attr.toList ++ render (entry.lead.drop 2) ↔
          entry.lead[2]? ≠ some (.char '@')) := by
  have first := isFirst_of_find found
  have slices := sliced first
  refine ⟨slices.own, slices.header, slices.params, slices.body, fun patch => ⟨edit?_eq first patch, ?_,
    fun attr given => patchedLead_eq_iff first given⟩⟩
  rw [edit?_eq first patch]
  cases meets : entry.markMeetsName <;> simp [edit?, meets]

/-- An attribute that touches the mark is parted from its parentheses, and where the name touches the mark there is no
slice in front of it. -/
theorem find_slices_touching :
    let apart := "@compute@diagnostic(off, derivative_uniformity) fn k() \x7b\x7d"
    let shut := "@compute@fn@k() \x7b\x7d"
    (∃ entry, find apart .compute "k" = .ok entry ∧ ∀ patch : Patch, patch.attr = some "@workgroup_size(8, 8, 1)" →
      entry.patchedLead patch ≠ "@compute @workgroup_size(8, 8, 1)@diagnostic(off, derivative_uniformity) fn ".toList ∧
      entry.patchedLead patch = "@compute@diagnostic @workgroup_size(8, 8, 1)(off, derivative_uniformity) fn ".toList) ∧
    ∃ entry, find shut .compute "k" = .ok entry ∧ ∀ patch : Patch, entry.span.edit? shut.toList patch = none := by
  intro apart shut
  constructor
  · let entry : EntryPoint := ⟨[], Text.tokens "@compute@diagnostic(off, derivative_uniformity) fn ".toList, "k".toList,
      [], [], [.char ' '], [], []⟩
    have found : find apart .compute "k" = .ok entry := by decide +kernel
    refine ⟨entry, found, fun patch given => ?_⟩
    obtain ⟨-, -, -, -, all⟩ := find_slices _ _ _ _ found
    have told := ((all patch).2.2 _ given).not.mpr (by decide +kernel)
    refine ⟨fun same => told (same.trans (by decide +kernel)), ?_⟩
    rw [patchedLead_eq, given]
    decide +kernel
  · let entry : EntryPoint := ⟨[], Text.tokens "@compute@fn@".toList, "k".toList, [], [], [.char ' '], [], []⟩
    have found : find shut .compute "k" = .ok entry := by decide +kernel
    obtain ⟨-, -, -, -, all⟩ := find_slices _ _ _ _ found
    exact ⟨entry, found, fun patch => (all patch).2.1.mpr (by decide +kernel)⟩

end EntryPoint

end FrameGraph
