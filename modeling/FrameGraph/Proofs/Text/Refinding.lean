import FrameGraph.Proofs.Text.Attribute
import FrameGraph.Proofs.Text.Finding
import FrameGraph.Proofs.Text.Joining
import FrameGraph.Text.Patch

/-! # Edited entry points are found again

What is found is determined by the row of tokens, so an entry point is found in any text whose row is cut into the
pieces of a declaration. Taking an entry point out of its text gives such a row, and so does an edit of what was taken
out: each piece is read back in front of the next one, its brackets pair up, and nothing that is put in front of the
name declares it.
-/

namespace FrameGraph

open Text

/-- A comment or a blank. -/
def Text.Token.isSpace : Token → Bool
  | .comment _ => true
  | .word _ => false
  | .char c => isBlank c

namespace EntryPoint

/-- A comment or a blank stands right behind the stage mark. -/
def IsSpaced (entry : EntryPoint) : Prop := ∃ token, entry.lead[2]? = some token ∧ token.isSpace = true

end EntryPoint

/-- A patch as it is built for an entry point. -/
structure Patch.Fits (patch : Patch) (entry : EntryPoint) : Prop where
  identifiers : patch.identifiers.Spelled
  /-- New parameters are there to be seen, so a comma may part them from the old ones. -/
  parameters : ∀ parameter ∈ patch.parameters, IsPlain parameter.toList ∧ trim parameter.toList ≠ []
  attr : ∀ text, patch.attr = some text → ∃ size, text = sizeAttr size
  /-- A slash at the end of the new lines must not make a comment of the old body. -/
  prologue : IsPlain patch.prologue.toList ∧ Apart patch.prologue.toList (render entry.body)
  newName : ∀ new, patch.newName = some new → isIdentifier new.toList = true ∧ .word new.toList ∉ entry.extract.tokens

namespace EntryPoint

variable {entry : EntryPoint} {stage : Stage} {name : String} {patch : Patch}

/-! ## The pieces of an edit -/

theorem not_extendsMark {token : Token} (space : token.isSpace = true) : extendsMark token = false := by
  cases token with
  | comment text => rfl
  | word text => cases space
  | char c =>
    have blank : ¬ isWordChar c = true := by
      intro word
      simp [Token.isSpace, isBlank_of_isWordChar word] at space
    have digit : c.isDigit = false := by
      by_contra digit
      simp [isWordChar, Char.isAlphanum, eq_true_of_ne_false digit] at blank
    have mark : c ≠ '@' := by
      rintro rfl
      cases space
    simp [extendsMark, mark, digit]

/-- Behind a spaced mark nothing extends it. -/
theorem spaced_lead {front : List Token} (lead : entry.lead = markTokens stage ++ front) (spaced : entry.IsSpaced) :
    entry.lead.takeWhile extendsMark = markTokens stage ∧ entry.lead.dropWhile extendsMark = front ∧
      entry.markMeetsName = false := by
  obtain ⟨token, third, space⟩ := spaced
  cases front with
  | nil => simp [lead, markTokens] at third
  | cons other front =>
    obtain rfl : other = token := by simpa [lead, markTokens] using third
    have stop := not_extendsMark space
    have mark : extendsMark (.char '@') = true := rfl
    have word : extendsMark (.word stage.word.toList) = true := rfl
    simp [markMeetsName, lead, markTokens, mark, word, stop]

/-- The attribute of a patch is a row of its own. -/
theorem exists_attr (fits : patch.Fits entry) :
    ∃ row, render row = attrText patch.attr ∧ (∀ rest, Legible rest row) ∧ IsHeader row ∧
      (∀ name front, Fresh name front → Fresh name (row ++ front)) ∧
      (row = [] ∨ ∃ more, row = .char ' ' :: more) := by
  cases given : patch.attr with
  | none => exact ⟨[], rfl, fun _ => trivial, isHeader_nil, fun _ _ fresh => fresh, .inl rfl⟩
  | some text =>
    obtain ⟨size, rfl⟩ := fits.attr text given
    exact ⟨sizeRow size, render_sizeRow size, fun rest => legible_sizeRow rest size, isHeader_sizeRow size,
      fun _ _ fresh => fresh.sizeRow size, .inr ⟨_, rfl⟩⟩

theorem isWordChar_closer {rest : List Char} {c : Char} (closes : isCloser c = true) :
    ∀ d, (c :: rest).head? = some d → isWordChar d = false := by
  rintro d ⟨⟩
  exact isWordChar_bracket (by simp [isBracket, closes])

/-- The new parameters, a comma and the renamed old ones are a row of their own. -/
theorem patchedParams_row (fits : patch.Fits entry) {rest : List Char}
    (legible : Legible (')' :: rest) entry.params) (balanced : Balanced entry.params) :
    ∃ row, render row = entry.patchedParams patch ∧ (∀ rest, Legible (')' :: rest) row) ∧ Balanced row := by
  suffices one : ∃ row, render row = entry.patchedParams patch ∧ Legible (')' :: rest) row ∧ Balanced row by
    obtain ⟨row, text, read, paired⟩ := one
    exact ⟨row, text, fun _ => read.follow (.inl rfl), paired⟩
  have stop : ∀ c, (')' :: rest).head? = some c → isWordChar c = false := isWordChar_closer rfl
  have old := legible_renamedRow fits.identifiers .start legible
  have oldBalanced := balanced.renamedRow patch.identifiers .start
  have plain : ∀ text ∈ patch.parameters, IsPlain text.toList := fun text member => (fits.parameters text member).1
  rw [patchedParams, rename, renameFrom_eq_render]
  split
  · rename_i short
    rw [List.append_nil]
    refine exists_join_commas stop plain old oldBalanced fun some => ?_
    -- the old parameters are blank, so no comment starts there
    have blank : trim (render entry.params) = [] := by simpa [some] using short
    have blank' := (isBlank_renamedRow fits.identifiers .start legible).mpr (trim_eq_nil_iff.mp blank)
    cases text : render (renamedRow patch.identifiers .start entry.params) with
    | nil => simp
    | cons c more =>
      have first := blank' c (by simp [text])
      constructor <;>
        · rintro ⟨⟩
          cases first
  · have comma : Legible (')' :: rest) (.char ',' :: .char ' ' :: renamedRow patch.identifiers .start entry.params) :=
      ⟨endsAt_char.mpr ⟨rfl, by simp⟩, endsAt_char.mpr ⟨rfl, by simp⟩, old⟩
    obtain ⟨row, split, read, paired⟩ := exists_join_commas stop plain comma
      ((balanced_cons rfl).mpr ((balanced_cons rfl).mpr oldBalanced)) fun _ => by simp [Token.chars]
    exact ⟨row, by simp [split, Token.chars], read, paired⟩

/-- The prologue and the renamed old body are a row of their own. -/
theorem patchedBody_row (fits : patch.Fits entry) {rest : List Char}
    (legible : Legible ('\x7d' :: rest) entry.body) (balanced : Balanced entry.body) :
    ∃ row, render row = entry.patchedBody patch ∧ (∀ rest, Legible ('\x7d' :: rest) row) ∧ Balanced row := by
  suffices one : ∃ row, render row = entry.patchedBody patch ∧ Legible ('\x7d' :: rest) row ∧ Balanced row by
    obtain ⟨row, text, read, paired⟩ := one
    exact ⟨row, text, fun _ => read.follow (.inl rfl), paired⟩
  rw [patchedBody, rename, renameFrom_eq_render]
  refine fits.prologue.1.exists_join (isWordChar_closer rfl) (legible_renamedRow fits.identifiers .start legible)
    (balanced.renamedRow _ _) fun slash => ?_
  have replaces := renamedRow_replaces fits.identifiers .start legible
  obtain ⟨noSlash, noStar⟩ := fits.prologue.2 slash
  cases text : render entry.body with
  | nil =>
    rw [text] at replaces
    exact ⟨replaces.head_ne rfl (by simp), replaces.head_ne rfl (by simp)⟩
  | cons c more =>
    rw [text] at replaces noSlash noStar
    exact ⟨replaces.head_ne rfl noSlash, replaces.head_ne rfl noStar⟩

/-- The name after the edit is a word, and no parameter list in front of it declares it. -/
theorem fits_name (fits : patch.Fits entry) (declares : entry.DeclaresFn stage name)
    (identifier : isIdentifier entry.name = true) {front : List Token} (lead : entry.lead = markTokens stage ++ front)
    (fresh : Fresh name front) :
    entry.patchedName patch = (patch.newName.getD name).toList ∧
      isIdentifier (patch.newName.getD name).toList = true ∧ Fresh (patch.newName.getD name) front := by
  unfold patchedName
  cases given : patch.newName with
  | none => exact ⟨declares.name_eq, declares.name_eq ▸ identifier, fresh⟩
  | some new =>
    obtain ⟨spelled, absent⟩ := fits.newName new given
    refine ⟨rfl, spelled, ?_⟩
    rintro done rest rfl - ⟨left, gap, rfl, -⟩
    exact absurd (by simp [extract, tokens, headerTokens, lead]) absent

/-- The mark is read back in front of anything that does not continue its word. -/
theorem legible_markTokens {rest : List Char} (stop : ∀ c, rest.head? = some c → isWordChar c = false) :
    Legible rest (markTokens stage) := by
  refine ⟨endsAt_char.mpr ⟨rfl, by simp⟩, endsAt_word.mpr ⟨?_, stop⟩, trivial⟩
  cases stage <;> decide +kernel

theorem extract_apply (entry : EntryPoint) (patch : Patch) :
    (entry.extract.apply patch).toList =
      entry.patchedLead patch ++ entry.patchedName patch ++ render entry.gap ++
        '(' :: entry.patchedParams patch ++ ')' :: render entry.trailer ++
        '\x7b' :: entry.patchedBody patch ++ ['\x7d'] :=
  String.toList_ofList

/-- An edit of an entry point that is taken out of its text is a declaration of the new name in pieces of its own. -/
theorem exists_edited (declares : entry.DeclaresFn stage name) (legible : Legible [] entry.extract.tokens)
    (spaced : entry.IsSpaced) (fits : patch.Fits entry) :
    ∃ again : EntryPoint, again.before = [] ∧ again.after = [] ∧
      again.DeclaresFn stage (patch.newName.getD name) ∧ Legible [] again.tokens ∧
      render again.tokens = (entry.extract.apply patch).toList ∧
      render again.params = entry.patchedParams patch ∧ render again.body = entry.patchedBody patch := by
  obtain ⟨front, lead, last, fresh⟩ := declares.lead
  obtain ⟨taken, dropped, -⟩ := spaced_lead lead spaced
  obtain ⟨leadL, identifier, stop, gapL, paramsL, trailerL, bodyL⟩ := entry.legible_iff.mp legible
  obtain ⟨leadHeader, trailerHeader⟩ := declares.parts
  rw [lead] at leadL leadHeader
  have frontHeader := leadHeader.suffix (balanced_markTokens stage)
  obtain ⟨named, spelled, fresh⟩ := fits_name fits declares identifier lead fresh
  obtain ⟨attr, text, attrL, attrHeader, attrFresh, attrFirst⟩ := exists_attr fits
  obtain ⟨params, paramsText, paramsL, paramsBalanced⟩ := patchedParams_row fits paramsL declares.params
  obtain ⟨body, bodyText, bodyL, bodyBalanced⟩ := patchedBody_row fits bodyL declares.body
  have newLead := (isHeader_markTokens stage).append (attrHeader.append frontHeader)
  let again : EntryPoint :=
    ⟨[], markTokens stage ++ (attr ++ front), (patch.newName.getD name).toList, entry.gap, params, entry.trailer, body,
      []⟩
  have read : Legible (patch.newName.getD name).toList again.lead := by
    obtain ⟨markL, frontL⟩ := legible_append.mp leadL
    have replaces := replaces_word spelled identifier [] []
    rw [List.append_nil, List.append_nil] at replaces
    refine legible_append.mpr ⟨?_, legible_append.mpr ⟨attrL _, frontL.follow replaces⟩⟩
    rcases attrFirst with rfl | ⟨more, rfl⟩
    · exact markL.follow (head_append replaces)
    · exact legible_markTokens (by rintro c ⟨⟩; decide)
  refine ⟨again, rfl, rfl, ⟨⟨attr ++ front, rfl, ?_, attrFresh _ front fresh⟩, newLead.balanced, rfl, declares.gap,
    paramsBalanced, isHeader_headerTokens newLead declares.gap paramsBalanced trailerHeader, bodyBalanced⟩, ?_, ?_,
    paramsText, bodyText⟩
  · exact EndsIn.prepend last attr fun _ _ => trivial
  · exact again.legible_iff.mpr ⟨read, spelled, stop, gapL, paramsL [], trailerL, bodyL []⟩
  · have leadText : entry.patchedLead patch = render again.lead := by
      rw [patchedLead_eq, taken, dropped, render_append, render_append, text, List.append_assoc]
    rw [extract_apply, leadText, named, ← paramsText, ← bodyText]
    simp [again, tokens, headerTokens, render_append, Token.chars]

/-! ## Found again -/

/-- Behind a spaced mark every patch can be applied. -/
theorem edit?_spaced (declares : entry.DeclaresFn stage name) (spaced : entry.IsSpaced) (patch : Patch) :
    entry.edit? patch = some (entry.apply patch) := by
  obtain ⟨front, lead, -⟩ := declares.lead
  simp [edit?, (spaced_lead lead spaced).2.2]

/-- Nothing around the entry point changes. -/
theorem apply_eq (entry : EntryPoint) (patch : Patch) :
    (entry.apply patch).toList = render entry.before ++ (entry.extract.apply patch).toList ++ render entry.after := by
  rw [extract_apply]
  simp [apply]

/-- A declaration alone in a text is found there. -/
theorem find_alone (declares : entry.DeclaresFn stage name) (before : entry.before = []) (after : entry.after = [])
    (legible : Legible [] entry.tokens) {text : String} (whole : text.toList = render entry.tokens) :
    find text stage name = .ok entry := by
  have read : Text.tokens text.toList = entry.tokens := by rw [whole, legible.tokens_render]
  refine find_eq_ok ⟨declares, read, by rw [before]; exact balanced_nil, fun _ _ _ _ _ => by simp [before]⟩ ?_
  have split : entry.tokens = entry.headerTokens ++ group '\x7b' entry.body := by
    simp [tokens_eq, before, after, group, closerOf]
  rw [read, split]
  exact declares.header.balanced.append (declares.body.group rfl)

theorem DeclaresFn.extract (declares : entry.DeclaresFn stage name) : entry.extract.DeclaresFn stage name where
  lead := declares.lead
  top_lead := declares.top_lead
  name_eq := declares.name_eq
  gap := declares.gap
  params := declares.params
  header := declares.header
  body := declares.body

/-- Offsets in the text of an entry point alone are counted from its start. -/
theorem span_extract (entry : EntryPoint) :
    entry.extract.span.offsets = entry.span.offsets.map (· - entry.span.start) := by
  simp only [span, extract, Span.offsets, byteSize, Nat.zero_add, Nat.sub_self, Nat.add_sub_cancel_left, List.map_cons,
    List.map_nil, List.cons.injEq, and_true, true_and]
  omega

/-- A comma stands between new and old parameters where neither are blank. -/
theorem patchedParams_eq (fits : patch.Fits entry) {rest : List Char} (legible : Legible rest entry.params) :
    entry.patchedParams patch =
      (String.intercalate ", " patch.parameters).toList ++
        (if trim (String.intercalate ", " patch.parameters).toList = [] ∨
          trim (rename patch.identifiers entry.params) = [] then [] else [',', ' ']) ++
        rename patch.identifiers entry.params := by
  have old : trim (rename patch.identifiers entry.params) = [] ↔ trim (render entry.params) = [] := by
    rw [trim_eq_nil_iff, trim_eq_nil_iff, rename, renameFrom_eq_render,
      isBlank_renamedRow fits.identifiers .start legible]
  have new : trim (String.intercalate ", " patch.parameters).toList = [] ↔ patch.parameters = [] := by
    refine ⟨fun blank => ?_, fun none => by rw [none]; rfl⟩
    cases given : patch.parameters with
    | nil => rfl
    | cons first others =>
      rw [given, trim_eq_nil_iff] at blank
      refine absurd (trim_eq_nil_iff.mpr fun c member => blank c ?_) (fits.parameters first (by simp [given])).2
      cases others with
      | nil => simpa using member
      | cons next others => simp [String.intercalate_cons_cons, member]
  rw [patchedParams]
  simp only [new, old, Bool.or_eq_true, List.isEmpty_iff]

/-- An entry point that is taken out of its text is found in what is taken out, and a patch as it is built gives a text
in which the entry point is found under its new name with its new parameters and body. The same patch changes nothing
around the entry point in the text it was taken from. -/
theorem find_edited (source : String) (stage : Stage) (name : String) (entry : EntryPoint)
    (found : find source stage name = .ok entry) (spaced : entry.IsSpaced) :
    let text := String.ofList (render entry.extract.tokens)
    source.toList = render entry.before ++ text.toList ++ render entry.after ∧
    utf8Size (render entry.before) = entry.span.start ∧
    utf8Size (render entry.before ++ text.toList) = entry.span.stop ∧
    find text stage name = .ok entry.extract ∧
    entry.extract.span.offsets = entry.span.offsets.map (· - entry.span.start) ∧
    ∀ patch : Patch, ∃ whole edited,
      entry.edit? patch = some whole ∧ entry.extract.edit? patch = some edited ∧
      whole.toList = render entry.before ++ edited.toList ++ render entry.after ∧
      (patch.Fits entry → ∃ again,
        find edited stage (patch.newName.getD name) = .ok again ∧
        render again.params =
          (String.intercalate ", " patch.parameters).toList ++
            (if trim (String.intercalate ", " patch.parameters).toList = [] ∨
              trim (rename patch.identifiers entry.params) = [] then [] else [',', ' ']) ++
            rename patch.identifiers entry.params ∧
        render again.body = patch.prologue.toList ++ rename patch.identifiers entry.body) := by
  intro text
  have first := isFirst_of_find found
  have legible := legible_extract first
  have taken : text.toList = render entry.extract.tokens := String.toList_ofList
  refine ⟨?_, (byteSize_eq _).symm, ?_, find_alone first.extract rfl rfl legible taken, span_extract entry,
    fun patch => ⟨entry.apply patch, entry.extract.apply patch, edit?_spaced first.toDeclaresFn spaced patch,
      edit?_spaced first.extract spaced patch, apply_eq entry patch, fun fits => ?_⟩⟩
  · rw [taken, ← render_tokens source.toList, first.whole, tokens_split, render_append, render_append,
      List.append_assoc]
  · rw [taken, stop_eq, byteSize_eq, render_append]
  · obtain ⟨again, before, after, declares, read, same, params, body⟩ := exists_edited first.toDeclaresFn legible
      spaced fits
    have own := (entry.legible_iff.mp legible).2.2.2.2.1
    exact ⟨again, find_alone declares before after read same.symm, params.trans (patchedParams_eq fits own), body⟩

/-- A kernel behind another one, with a builtin parameter, a workgroup size, a range check and new names. -/
theorem find_edited_kernel :
    let source := "@compute fn k0() \x7b\x7d @compute fn k(n: u32) \x7b n; /* \x7d */ \x7d\n"
    let patch : Patch := ⟨["@builtin(position) gid: vec3<u32>"], some "@workgroup_size(8, 8, 1)",
      "\n    if (gid.x >= n) \x7b return; \x7d", some "k_1", [("n", "k__n")]⟩
    let edited := "@compute @workgroup_size(8, 8, 1) fn k_1(@builtin(position) gid: vec3<u32>, k__n: u32) \x7b" ++
      "\n    if (gid.x >= n) \x7b return; \x7d k__n; /* \x7d */ \x7d"
    ∃ entry again, find source .compute "k" = .ok entry ∧ entry.IsSpaced ∧ patch.Fits entry ∧
      entry.extract.edit? patch = some edited ∧ find edited .compute "k_1" = .ok again ∧
      render again.params = "@builtin(position) gid: vec3<u32>, k__n: u32".toList ∧
      render again.body = "\n    if (gid.x >= n) \x7b return; \x7d k__n; /* \x7d */ ".toList := by
  intro source patch edited
  let entry : EntryPoint :=
    { before := Text.tokens "@compute fn k0() \x7b\x7d ".toList
      lead := Text.tokens "@compute fn ".toList
      name := "k".toList
      gap := []
      params := Text.tokens "n: u32".toList
      trailer := [.char ' ']
      body := Text.tokens " n; /* \x7d */ ".toList
      after := [.char '\n'] }
  have found : find source .compute "k" = .ok entry := by decide +kernel
  have spaced : entry.IsSpaced := ⟨.char ' ', by decide +kernel, rfl⟩
  have fits : patch.Fits entry := by
    refine ⟨spelled_of_forall (by decide +kernel), by decide +kernel, ?_, by decide +kernel, ?_⟩
    · rintro text ⟨⟩
      exact ⟨⟨8, 8, 1⟩, by decide +kernel⟩
    · rintro new ⟨⟩
      decide +kernel
  have edit : entry.extract.edit? patch = some edited := by decide +kernel
  obtain ⟨-, -, -, -, -, all⟩ := find_edited source .compute "k" entry found spaced
  obtain ⟨-, text, -, alone, -, again⟩ := all patch
  obtain rfl := Option.some.inj (edit.symm.trans alone)
  obtain ⟨again, foundAgain, params, body⟩ := again fits
  exact ⟨entry, again, found, spaced, fits, edit, foundAgain, params.trans (by decide +kernel),
    body.trans (by decide +kernel)⟩

end EntryPoint

end FrameGraph
