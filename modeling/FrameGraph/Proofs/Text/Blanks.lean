import FrameGraph.Proofs.Text.Joining
import FrameGraph.Text.Header

/-! # Evened blanks

The parameters of an entry point are searched for `@builtin(value)` after their blanks have been evened out: one between
words and none next to the inside of a round bracket. That is the same as reading the text itself and passing over the
blanks inside the brackets.
-/

namespace FrameGraph

open Text

namespace Text

/-! ## Evened blanks -/

/-- A text without its blanks, but for one space where `keeps` has one between the character before and the next.
`blank` tells whether blanks stand before the text. -/
def squeeze (keeps : Option Char → Char → Bool) (previous : Option Char) (blank : Bool) : List Char → List Char
  | [] => []
  | c :: rest =>
    if isBlank c then squeeze keeps previous true rest
    else (if blank && keeps previous c then [' '] else []) ++ c :: squeeze keeps (some c) false rest

/-- A space stands between words. -/
def inside (previous : Option Char) (_ : Char) : Bool := previous.isSome

/-- None stands behind an opening bracket. -/
def notOpened (previous : Option Char) (_ : Char) : Bool := previous.any (· != '(')

/-- None stands before a closing bracket either. -/
def notBracketed (previous : Option Char) (c : Char) : Bool := previous.any (· != '(') && c != ')'

theorem squeeze_blank {keeps : Option Char → Char → Bool} {c : Char} (is : isBlank c = true)
    (previous : Option Char) (blank : Bool) (rest : List Char) :
    squeeze keeps previous blank (c :: rest) = squeeze keeps previous true rest := by
  rw [squeeze, if_pos is]

theorem squeeze_dark {keeps : Option Char → Char → Bool} {c : Char} (dark : isBlank c = false)
    (previous : Option Char) (blank : Bool) (rest : List Char) :
    squeeze keeps previous blank (c :: rest) =
      (if blank && keeps previous c then [' '] else []) ++ c :: squeeze keeps (some c) false rest := by
  rw [squeeze, if_neg (by simp [dark])]

theorem blankSeparated_ne_nil {run : List Char} (some : run ≠ []) (text : List Char) : blankSeparated run text ≠ [] := by
  induction text generalizing run with
  | nil => simp [blankSeparated, some]
  | cons c text ih =>
    rw [blankSeparated]
    split
    · simp [some]
    · exact ih (List.cons_ne_nil c run)

/-- In front of everything else blanks do not matter. -/
theorem squeeze_none (blank : Bool) (text : List Char) :
    squeeze inside none blank text = squeeze inside none false text := by
  induction text generalizing blank with
  | nil => rfl
  | cons c text ih =>
    cases dark : isBlank c with
    | true => rw [squeeze_blank dark, squeeze_blank dark]
    | false => simp [squeeze_dark dark, inside]

theorem intercalate_blankSeparated (text : List Char) :
    (∀ run, [' '].intercalate (blankSeparated run text) = run.reverse ++ squeeze inside run.head? false text) ∧
    ∀ word previous, [' '].intercalate (word :: blankSeparated [] text) =
      word ++ squeeze inside (some previous) true text := by
  induction text with
  | nil => exact ⟨fun run => by cases run <;> simp [blankSeparated, squeeze], fun word _ => by simp [blankSeparated, squeeze]⟩
  | cons c text ih =>
    obtain ⟨within, behind⟩ := ih
    cases dark : isBlank c with
    | true =>
      refine ⟨fun run => ?_, fun word previous => ?_⟩
      · cases run with
        | nil =>
          rw [blankSeparated, if_pos dark, squeeze_blank dark, List.head?_nil, squeeze_none]
          exact within []
        | cons r run =>
          rw [blankSeparated, if_pos dark, squeeze_blank dark]
          exact behind _ r
      · rw [blankSeparated, if_pos dark, squeeze_blank dark]
        exact behind word previous
    | false =>
      have bright : ¬isBlank c = true := by simp [dark]
      refine ⟨fun run => ?_, fun word previous => ?_⟩
      · rw [blankSeparated, if_neg bright, within, squeeze_dark dark]
        simp
      · rw [blankSeparated, if_neg bright, squeeze_dark dark]
        have more := within [c]
        obtain ⟨first, others, listed⟩ := List.exists_cons_of_ne_nil (blankSeparated_ne_nil (List.cons_ne_nil c []) text)
        rw [listed] at more ⊢
        rw [List.intercalate_cons_cons, more]
        simp [inside]

theorem afterOpen_squeeze {c : Char} (dark : isBlank c = false) (blank : Bool) (text : List Char) :
    compact.afterOpen (c :: squeeze inside (some c) blank text) = c :: squeeze notOpened (some c) blank text := by
  induction text generalizing c blank with
  | nil => rw [squeeze, squeeze, compact.afterOpen.eq_2 _ _ (by simp), compact.afterOpen]
  | cons d text ih =>
    cases next : isBlank d with
    | true => rw [squeeze_blank next, squeeze_blank next, ih dark]
    | false =>
      have other : d ≠ ' ' := by
        rintro rfl
        cases next
      have plain : ∀ rest, compact.afterOpen (c :: d :: rest) = c :: compact.afterOpen (d :: rest) :=
        fun rest => compact.afterOpen.eq_2 _ _ fun _ _ same => other (List.cons.inj same).1
      rw [squeeze_dark next, squeeze_dark next]
      cases blank with
      | false => simp [plain, ih next]
      | true =>
        by_cases opened : c = '('
        · subst opened
          simp [inside, notOpened, compact.afterOpen.eq_1, ih next]
        · have spaced : ∀ rest, compact.afterOpen (c :: ' ' :: rest) = c :: ' ' :: compact.afterOpen rest := by
            intro rest
            rw [compact.afterOpen.eq_2 _ _ fun _ same => absurd same opened,
              compact.afterOpen.eq_2 _ _ fun _ same => absurd same (by decide)]
          simp [inside, notOpened, opened, spaced, ih next]

theorem beforeClose_squeeze (previous : Option Char) (blank : Bool) (text : List Char) :
    compact.beforeClose (squeeze notOpened previous blank text) = squeeze notBracketed previous blank text := by
  induction text generalizing previous blank with
  | nil => rfl
  | cons c text ih =>
    cases dark : isBlank c with
    | true => rw [squeeze_blank dark, squeeze_blank dark, ih]
    | false =>
      have other : c ≠ ' ' := by
        rintro rfl
        cases dark
      have plain : ∀ rest, compact.beforeClose (c :: rest) = c :: compact.beforeClose rest :=
        fun rest => compact.beforeClose.eq_2 _ _ fun _ same => absurd same other
      rw [squeeze_dark dark, squeeze_dark dark]
      cases spaced : blank && notOpened previous c with
      | false =>
        have none : (blank && notBracketed previous c) = false := by
          simp only [notOpened, notBracketed, Bool.and_eq_false_iff] at spaced ⊢
          tauto
        simp [none, plain, ih]
      | true =>
        by_cases closes : c = ')'
        · subst closes
          simp [notBracketed, compact.beforeClose.eq_1, ih]
        · have kept : ∀ rest, compact.beforeClose (' ' :: c :: rest) = ' ' :: c :: compact.beforeClose rest := by
            intro rest
            rw [compact.beforeClose.eq_2 _ _ fun _ _ same => closes (List.cons.inj same).1, plain]
          have one : (blank && notBracketed previous c) = true := by simpa [notOpened, notBracketed, closes] using spaced
          simp [one, kept, ih]

theorem afterOpen_squeeze_none (blank : Bool) (text : List Char) :
    compact.afterOpen (squeeze inside none blank text) = squeeze notOpened none blank text := by
  induction text generalizing blank with
  | nil => rfl
  | cons c text ih =>
    cases dark : isBlank c with
    | true => rw [squeeze_blank dark, squeeze_blank dark, ih]
    | false => simp [squeeze_dark dark, afterOpen_squeeze dark, inside, notOpened]

/-- Evening out the blanks keeps a space only between words that no bracket separates. -/
theorem compact_eq (text : List Char) : compact text = squeeze notBracketed none false text := by
  rw [compact, (intercalate_blankSeparated text).1 [], List.reverse_nil, List.nil_append, List.head?_nil,
    afterOpen_squeeze_none, beforeClose_squeeze]

/-! ## The search in the text as it is -/

theorem trimStart_blank {c : Char} (is : isBlank c = true) (text : List Char) : trimStart (c :: text) = trimStart text :=
  List.dropWhile_cons_of_pos is

theorem trimStart_dark {c : Char} (dark : isBlank c = false) (text : List Char) : trimStart (c :: text) = c :: text :=
  List.dropWhile_cons_of_neg (by simp [dark])

theorem squeeze_of_blanks {text : List Char} (blanks : trimStart text = []) (keeps : Option Char → Char → Bool)
    (previous : Option Char) (blank : Bool) : squeeze keeps previous blank text = [] := by
  induction text generalizing blank with
  | nil => rfl
  | cons c text ih =>
    cases dark : isBlank c with
    | true => rw [squeeze_blank dark, ih (trimStart_blank dark text ▸ blanks)]
    | false =>
      rw [trimStart_dark dark] at blanks
      cases blanks

theorem squeeze_of_first {c : Char} {text rest : List Char} (first : trimStart text = c :: rest)
    (keeps : Option Char → Char → Bool) (previous : Option Char) (blank : Bool) :
    squeeze keeps previous blank text =
      (if (blank || text.head?.any isBlank) && keeps previous c then [' '] else []) ++
        c :: squeeze keeps (some c) false rest := by
  induction text generalizing blank with
  | nil => cases first
  | cons d text ih =>
    cases dark : isBlank d with
    | true =>
      rw [squeeze_blank dark, ih (trimStart_blank dark text ▸ first)]
      simp [dark]
    | false =>
      obtain ⟨rfl, rfl⟩ := List.cons.inj (trimStart_dark dark text ▸ first)
      rw [squeeze_dark dark]
      simp [dark]

theorem trimStart_head {c : Char} {text rest : List Char} (first : trimStart text = c :: rest) : isBlank c = false := by
  have head : (text.dropWhile isBlank).head? = some c := congrArg List.head? first
  exact head_dropWhile head

/-- The text in which a character of a needle is looked for. -/
def trimmedFor (previous c : Char) (text : List Char) : List Char :=
  if previous = '(' ∨ c = ')' then trimStart text else text

/-- The text behind a needle at the start of a text, blanks behind an opening and before a closing bracket aside. -/
def strip (previous : Char) : List Char → List Char → Option (List Char)
  | [], text => some text
  | c :: needle, text =>
    match trimmedFor previous c text with
    | [] => none
    | d :: text => if d = c then strip c needle text else none

def builtinWord : List Char := ['b', 'u', 'i', 'l', 't', 'i', 'n']

theorem isWordChar_of_builtinWord : ∀ c ∈ builtinWord, isWordChar c = true := by simp [builtinWord, isWordChar]

/-- The part of the search text behind the `@`. -/
def declaration (value : List Char) : List Char := builtinWord ++ '(' :: (value ++ [')'])

/-- The text behind a declaration of the value at the start of a text. -/
def builtinRest? (value : List Char) : List Char → Option (List Char)
  | '@' :: text => strip '@' (declaration value) text
  | _ => none

/-- The text behind the first declaration of the value. -/
def firstBuiltin? (value : List Char) : List Char → Option (List Char)
  | [] => none
  | c :: text => (builtinRest? value (c :: text)).or (firstBuiltin? value text)

/-- The word at the start of a text, blanks aside. -/
def firstName? (text : List Char) : Option String :=
  let name := (trimStart text).takeWhile isWordChar
  if name.isEmpty then none else some (String.ofList name)

theorem strip_none {previous c : Char} {text : List Char} (none : trimmedFor previous c text = [])
    (needle : List Char) : strip previous (c :: needle) text = Option.none := by
  rw [strip, none]

theorem strip_some {previous c d : Char} {text rest : List Char} (first : trimmedFor previous c text = d :: rest)
    (needle : List Char) : strip previous (c :: needle) text = if d = c then strip c needle rest else none := by
  rw [strip, first]

/-- A dark character stands first after the blanks are evened out if it stands first where it is looked for. -/
theorem squeeze_starts {c : Char} (dark : isBlank c = false) (previous : Char) (text : List Char) :
    (∀ rest, trimmedFor previous c text = c :: rest →
      squeeze notBracketed (some previous) false text = c :: squeeze notBracketed (some c) false rest) ∧
    ∀ more, squeeze notBracketed (some previous) false text = c :: more → ∃ rest, trimmedFor previous c text = c :: rest := by
  unfold trimmedFor
  by_cases bracket : previous = '(' ∨ c = ')'
  · have none : notBracketed (some previous) c = false := by
      rcases bracket with rfl | rfl <;> simp [notBracketed]
    simp only [if_pos bracket]
    refine ⟨fun rest first => by simp [squeeze_of_first first, none], fun more first => ?_⟩
    cases start : trimStart text with
    | nil => simp [squeeze_of_blanks start] at first
    | cons d rest =>
      rw [squeeze_of_first start] at first
      split at first
      · obtain ⟨rfl, -⟩ := List.cons.inj first
        cases dark
      · obtain ⟨rfl, -⟩ := List.cons.inj first
        exact ⟨rest, rfl⟩
  · obtain ⟨opened, closed⟩ := not_or.mp bracket
    simp only [if_neg bracket]
    refine ⟨fun rest first => by simp [first, squeeze_dark dark], fun more first => ?_⟩
    cases start : trimStart text with
    | nil => simp [squeeze_of_blanks start] at first
    | cons d rest =>
      rw [squeeze_of_first start] at first
      split at first
      · obtain ⟨rfl, -⟩ := List.cons.inj first
        cases dark
      · rename_i unspaced
        obtain ⟨rfl, -⟩ := List.cons.inj first
        -- no space was put there, so no blanks stood there
        cases text with
        | nil => cases start
        | cons e text =>
          have bright : isBlank e = false := by simpa [notBracketed, opened, closed] using unspaced
          exact ⟨rest, (trimStart_dark bright text).symm.trans start⟩

/-- Whether the needle stands at the start can be seen before the blanks are evened out. -/
theorem strip_squeeze {needle : List Char} (dark : ∀ c ∈ needle, isBlank c = false) (previous : Char) (text : List Char) :
    (∀ rest, strip previous needle text = some rest →
      squeeze notBracketed (some previous) false text =
        needle ++ squeeze notBracketed (some (needle.getLastD previous)) false rest) ∧
    (strip previous needle text = none → ¬needle <+: squeeze notBracketed (some previous) false text) := by
  induction needle generalizing previous text with
  | nil => simp [strip]
  | cons c needle ih =>
    obtain ⟨bright, later⟩ := List.forall_mem_cons.mp dark
    obtain ⟨first, only⟩ := squeeze_starts bright previous text
    cases start : trimmedFor previous c text with
    | nil =>
      rw [strip_none start]
      refine ⟨nofun, fun _ => ?_⟩
      rintro ⟨more, whole⟩
      obtain ⟨rest, same⟩ := only _ whole.symm
      simp [start] at same
    | cons d rest =>
      rw [strip_some start]
      by_cases same : d = c
      · subst same
        obtain ⟨found, missed⟩ := ih later d rest
        have last : (d :: needle).getLastD previous = needle.getLastD d := by cases needle <;> rfl
        rw [first rest start, last, if_pos rfl]
        refine ⟨fun after is => by rw [found after is, List.cons_append], fun none => ?_⟩
        simpa [List.cons_prefix_cons] using missed none
      · rw [if_neg same]
        refine ⟨nofun, fun _ => ?_⟩
        rintro ⟨more, whole⟩
        obtain ⟨after, is⟩ := only _ whole.symm
        rw [start, List.cons.injEq] at is
        exact same is.1

theorem declaration_dark {value : List Char} (dark : ∀ c ∈ value, isBlank c = false) :
    ∀ c ∈ declaration value, isBlank c = false := by
  have letters (c : Char) (member : c ∈ builtinWord) := isBlank_of_isWordChar (isWordChar_of_builtinWord c member)
  refine List.forall_mem_append.mpr ⟨letters, List.forall_mem_cons.mpr ⟨rfl, ?_⟩⟩
  exact List.forall_mem_append.mpr ⟨dark, List.forall_mem_singleton.mpr rfl⟩

theorem declaration_last (value : List Char) : (declaration value).getLastD '@' = ')' := by
  rw [declaration, ← List.cons_append, ← List.append_assoc, List.getLastD_concat]

/-- The first declaration of an evened text is the first one of the text. -/
theorem afterFirst?_squeeze {value : List Char} (dark : ∀ c ∈ value, isBlank c = false) (previous : Option Char)
    (blank : Bool) (text : List Char) :
    afterFirst? ('@' :: declaration value) (squeeze notBracketed previous blank text) =
      (firstBuiltin? value text).map (squeeze notBracketed (some ')') false) := by
  have skip : ∀ {c : Char} {rest : List Char}, c ≠ '@' →
      afterFirst? ('@' :: declaration value) (c :: rest) = afterFirst? ('@' :: declaration value) rest := by
    intro c rest other
    rw [afterFirst?, if_neg]
    simp [Ne.symm other]
  induction text generalizing previous blank with
  | nil => rfl
  | cons c text ih =>
    cases bright : isBlank c with
    | true =>
      have other : c ≠ '@' := by
        rintro rfl
        cases bright
      rw [squeeze_blank bright, ih, firstBuiltin?, builtinRest?.eq_2 _ _ fun _ same => other (List.cons.inj same).1]
      rfl
    | false =>
      have spaced : afterFirst? ('@' :: declaration value) (squeeze notBracketed previous blank (c :: text)) =
          afterFirst? ('@' :: declaration value) (c :: squeeze notBracketed (some c) false text) := by
        rw [squeeze_dark bright]
        split
        · exact skip (by decide)
        · rfl
      rw [spaced, firstBuiltin?]
      by_cases other : c = '@'
      case neg =>
        rw [skip other, ih, builtinRest?.eq_2 _ _ fun _ same => other (List.cons.inj same).1]
        rfl
      subst other
      obtain ⟨found, missed⟩ := strip_squeeze (declaration_dark dark) '@' text
      rw [afterFirst?, builtinRest?]
      cases start : strip '@' (declaration value) text with
      | some rest =>
        rw [found rest start, declaration_last, if_pos (by simp)]
        simp
      | none =>
        have absent := missed start
        rw [if_neg (by simpa using absent), ih]
        rfl

theorem takeWhile_squeeze {c : Char} (word : isWordChar c = true) (text : List Char) :
    (squeeze notBracketed (some c) false text).takeWhile isWordChar = text.takeWhile isWordChar := by
  induction text generalizing c with
  | nil => rfl
  | cons d text ih =>
    cases bright : isBlank d with
    | true =>
      have stop : isWordChar d = false := by
        by_contra inside
        rw [isBlank_of_isWordChar (eq_true_of_ne_false inside)] at bright
        cases bright
      have opened : c ≠ '(' := by
        rintro rfl
        cases word
      rw [List.takeWhile_cons_of_neg (by simp [stop]), squeeze_blank bright]
      cases first : trimStart text with
      | nil => rw [squeeze_of_blanks first]; rfl
      | cons e rest =>
        rw [squeeze_of_first first]
        by_cases closes : e = ')'
        · subst closes
          simp [notBracketed, isWordChar]
        · simp [notBracketed, opened, closes, isWordChar]
    | false =>
      rw [squeeze_dark bright]
      cases inside : isWordChar d with
      | true => simp [inside, ih inside]
      | false => simp [inside]

/-- The word at the start is the same after the blanks are evened out. -/
theorem firstName?_squeeze (previous : Option Char) (text : List Char) :
    firstName? (squeeze notBracketed previous false text) = firstName? text := by
  have same : (trimStart (squeeze notBracketed previous false text)).takeWhile isWordChar =
      (trimStart text).takeWhile isWordChar := by
    cases first : trimStart text with
    | nil => rw [squeeze_of_blanks first]; rfl
    | cons c rest =>
      have dark := trimStart_head first
      have start : trimStart (squeeze notBracketed previous false text) = c :: squeeze notBracketed (some c) false rest := by
        rw [squeeze_of_first first]
        split
        · rw [List.singleton_append, trimStart_blank rfl, trimStart_dark dark]
        · rw [List.nil_append, trimStart_dark dark]
      rw [start]
      cases inside : isWordChar c with
      | true => simp [inside, takeWhile_squeeze inside]
      | false => simp [inside]
  rw [firstName?, firstName?, same]

theorem declaredBuiltin?_eq (params : List Char) (value : String) (dark : ∀ c ∈ value.toList, isBlank c = false) :
    declaredBuiltin? params value = (firstBuiltin? value.toList params).bind firstName? := by
  have needle : s!"@builtin({value})".toList = '@' :: declaration value.toList := by
    have front : "@builtin(".toList = '@' :: (builtinWord ++ ['(']) := by decide +kernel
    rw [show s!"@builtin({value})" = "@builtin(" ++ value ++ ")" from rfl, String.toList_append, String.toList_append,
      front]
    simp [declaration]
  rw [declaredBuiltin?, needle, compact_eq, afterFirst?_squeeze dark]
  cases firstBuiltin? value.toList params with
  | none => rfl
  | some after => exact firstName?_squeeze _ after

end Text

end FrameGraph
