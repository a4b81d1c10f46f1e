import FrameGraph.Proofs.Compile.Emitted
import FrameGraph.Proofs.Compile.Relabelling
import FrameGraph.Proofs.Text.Reading

/-! # Labels in the text of a unit

The label of a leaf stands in a line of comment in front of the leaf's entry points, as it is. If it has one line, it goes
with the comments, unless a block comment is still open there. If it has more, what stands behind the first line feed is
code of the unit. Nothing else of a compiled program depends on labels.
-/

namespace FrameGraph

namespace Text

/-! ## Lines of comment between pieces of code -/

/-- A line feed outside comments ends the text, unless it is empty. -/
def EndsInCode (text : List Char) : Prop := text = [] ∨ (tokens text).getLast? = some (.char '\n')

instance (text : List Char) : Decidable (EndsInCode text) := inferInstanceAs (Decidable (_ ∨ _))

theorem EndsInCode.nil : EndsInCode [] := .inl rfl

/-- What follows code does not change how it is read. -/
theorem EndsInCode.tokens_append {text : List Char} (ends : EndsInCode text) (rest : List Char) :
    tokens (text ++ rest) = tokens text ++ tokens rest := by
  rcases ends with rfl | last
  · rw [List.nil_append, tokens, List.nil_append]
  · obtain ⟨front, split⟩ := List.getLast?_eq_some_iff.mp last
    have legible := legible_tokens text
    rw [split, legible_append] at legible
    have whole : Legible rest (tokens text) := by
      rw [split, legible_append]
      exact ⟨legible.1.follow (.inl rfl), endsAt_char.mpr ⟨by decide, by simp⟩, trivial⟩
    have read := whole.tokens_eq
    rwa [render_tokens] at read

theorem EndsInCode.eraseComments_append {text : List Char} (ends : EndsInCode text) (rest : List Char) :
    eraseComments (text ++ rest) = eraseComments text ++ eraseComments rest := by
  rw [eraseComments, ends.tokens_append, List.map_append, render_append]
  rfl

/-- The line of a comment: two slashes, a blank and what it says. -/
def caption (said : List Char) : List Char := '/' :: '/' :: ' ' :: said ++ ['\n']

/-- What stands behind the first line feed of a comment line is no comment. -/
theorem eraseComments_caption (said rest : List Char) :
    eraseComments (caption said ++ rest) = ' ' :: eraseComments ((said ++ '\n' :: rest).dropWhile (· != '\n')) := by
  have first : firstToken '/' ('/' :: ' ' :: (said ++ '\n' :: rest)) =
      (.comment ('/' :: '/' :: ' ' :: (said ++ '\n' :: rest).takeWhile (· != '\n')),
        (said ++ '\n' :: rest).dropWhile (· != '\n')) := by
    simp [firstToken]
  have split : caption said ++ rest = '/' :: '/' :: ' ' :: (said ++ '\n' :: rest) := by simp [caption]
  rw [split, eraseComments_cons, first]
  rfl

/-- A comment line that says nothing beyond its line is gone whatever it says. -/
theorem eraseComments_caption_line {said : List Char} (line : '\n' ∉ said) (rest : List Char) :
    eraseComments (caption said ++ rest) = ' ' :: '\n' :: eraseComments rest := by
  have inside : ∀ c ∈ said, (c != '\n') = true := fun c member => bne_iff_ne.mpr fun same => line (same ▸ member)
  have stop : ∀ c, ('\n' :: rest).head? = some c → (c != '\n') = false := by
    rintro c ⟨⟩
    rfl
  rw [eraseComments_caption, (span_append inside stop).2, eraseComments_cons, firstToken_char (by simp) (by decide)]
  rfl

end Text

open Text

/-! ## The texts of leaves -/

/-- The entry points of a leaf, without the line of its label. -/
def LeafText.body (text : LeafText) : String := String.join (text.entries.map EntryText.text)

/-- The texts of leaves, one after the other. -/
def LeafText.joined (texts : List LeafText) : List Char := (String.join (texts.map LeafText.text)).toList

namespace LeafText

variable {texts : List LeafText}

theorem toList_text (text : LeafText) : text.text.toList = caption text.label.toList ++ text.body.toList := by
  simp [LeafText.text, body, caption, toString]

theorem joined_append (a b : List LeafText) : joined (a ++ b) = joined a ++ joined b := by
  simp [joined]

theorem joined_cons (text : LeafText) (texts : List LeafText) :
    joined (text :: texts) = caption text.label.toList ++ (text.body.toList ++ joined texts) := by
  simp [joined, toList_text]

/-- Labels of one line each are gone with the comments. -/
theorem eraseComments_joined (closed : ∀ text ∈ texts, EndsInCode text.body.toList)
    (lines : ∀ text ∈ texts, '\n' ∉ text.label.toList) (rest : List Char) :
    eraseComments (joined texts ++ rest) =
      (texts.flatMap fun text => ' ' :: '\n' :: eraseComments text.body.toList) ++ eraseComments rest := by
  induction texts with
  | nil => rfl
  | cons text texts ih =>
    rw [List.forall_mem_cons] at closed lines
    rw [joined_cons, List.append_assoc, List.append_assoc, eraseComments_caption_line lines.1,
      closed.1.eraseComments_append, ih closed.2 lines.2]
    simp

end LeafText

namespace CompiledUnit.Relabels

variable {one other : CompiledUnit}

theorem bodies_eq (relabels : one.Relabels other) :
    other.leaves.map LeafText.body = one.leaves.map LeafText.body := by
  have lists := congrArg (List.map fun entries : List EntryText => String.join (entries.map EntryText.text))
    relabels.leaves_eq
  rwa [List.map_map, List.map_map] at lists

/-- The leaves end in code in both. -/
theorem closed (relabels : one.Relabels other) (closed : ∀ text ∈ one.leaves, EndsInCode text.body.toList) :
    ∀ text ∈ other.leaves, EndsInCode text.body.toList := by
  intro text listed
  have member : text.body ∈ one.leaves.map LeafText.body := relabels.bodies_eq ▸ List.mem_map_of_mem listed
  obtain ⟨twin, listed', same⟩ := List.mem_map.mp member
  exact same ▸ closed twin listed'

/-- Without comments the two are the same if their labels have one line each. -/
theorem eraseComments_eq (relabels : one.Relabels other) {head : List Char} (headClosed : EndsInCode head)
    (closed : ∀ text ∈ one.leaves, EndsInCode text.body.toList)
    (lines : ∀ text ∈ one.leaves, '\n' ∉ text.label.toList) (lines' : ∀ text ∈ other.leaves, '\n' ∉ text.label.toList) :
    eraseComments (head ++ LeafText.joined other.leaves) = eraseComments (head ++ LeafText.joined one.leaves) := by
  have read := LeafText.eraseComments_joined closed lines []
  have read' := LeafText.eraseComments_joined (relabels.closed closed) lines' []
  have parts := congrArg (List.flatMap fun body : String => ' ' :: '\n' :: eraseComments body.toList) relabels.bodies_eq
  rw [List.flatMap_map, List.flatMap_map] at parts
  rw [List.append_nil] at read read'
  rw [headClosed.eraseComments_append, headClosed.eraseComments_append, read, read', parts]

end CompiledUnit.Relabels

namespace LeafText

/-- The first label of more lines than one is comment up to its first line feed only. -/
theorem eraseComments_spill {head : List Char} (headClosed : EndsInCode head) {front back : List LeafText} {text : LeafText}
    (closed : ∀ earlier ∈ front, EndsInCode earlier.body.toList)
    (lines : ∀ earlier ∈ front, '\n' ∉ earlier.label.toList) :
    eraseComments (head ++ joined (front ++ text :: back)) = eraseComments (head ++ joined front) ++
      ' ' :: eraseComments ((text.label.toList ++ '\n' :: (text.body.toList ++ joined back)).dropWhile (· != '\n')) := by
  have early := eraseComments_joined closed lines []
  rw [List.append_nil, eraseComments_nil, List.append_nil] at early
  rw [joined_append, headClosed.eraseComments_append, eraseComments_joined closed lines, joined_cons,
    eraseComments_caption, headClosed.eraseComments_append, early, List.append_assoc]

end LeafText

/-- The labels of its leaves have one line each. -/
def Program.OneLine (program : Program) : Prop :=
  ∀ leaf ∈ (Flattened.ofProgram program).leaves, '\n' ∉ leaf.node.label.toList

/-- The labels in the text of a unit are those of leaves. -/
theorem CompiledProgram.Of.oneLine {source : Program} {program : CompiledProgram} (of : program.Of source)
    (lines : source.OneLine) : ∀ unit ∈ program.units, ∀ text ∈ unit.leaves, '\n' ∉ text.label.toList := by
  intro unit has text listed
  obtain ⟨place, here⟩ := List.mem_iff_getElem?.mp has
  obtain ⟨leaf, kept, tells⟩ := (of.texts place unit here).flip.exists_right listed
  have member := (List.of_mem_zip (List.mem_of_mem_filter kept)).1
  exact tells.label_eq ▸ lines leaf.1 member

/-- Two programs that differ in labels only compile alike: leaves, resource usage, argument blocks, entry points and
records are the same, and so is the text of every unit but for the lines of the labels. As long as no comment is left open
in front of a label, labels of one line each are gone with the comments, and what a label says behind its first line feed
is read as code. -/
theorem Program.compile_unlabelled {table : ResourceTable} {caps : DeviceCaps} {one other : Program}
    {program : CompiledProgram} {log : List LogLine} (compiled : one.compile table caps = .ok (program, log))
    (same : one.unlabelled = other.unlabelled) :
    ∃ program' log', other.compile table caps = .ok (program', log') ∧
      program'.leaves = program.leaves ∧ program'.usage = program.usage ∧ program'.blocks = program.blocks ∧
      List.Forall₂ (fun unit unit' : CompiledUnit => unit'.entries = unit.entries ∧ unit'.records = unit.records ∧
        unit'.leaves.map (·.entries) = unit.leaves.map (·.entries) ∧
        ∃ head : String, unit.source.toList = head.toList ++ LeafText.joined unit.leaves ∧
          unit'.source.toList = head.toList ++ LeafText.joined unit'.leaves ∧
          (EndsInCode head.toList → (∀ text ∈ unit.leaves, EndsInCode text.body.toList) →
            (one.OneLine → other.OneLine →
              eraseComments unit'.source.toList = eraseComments unit.source.toList) ∧
            ∀ front text back, unit'.leaves = front ++ text :: back →
              (∀ earlier ∈ front, '\n' ∉ earlier.label.toList) →
              eraseComments unit'.source.toList = eraseComments (head.toList ++ LeafText.joined front) ++
                ' ' :: eraseComments ((text.label.toList ++
                  '\n' :: (text.body.toList ++ LeafText.joined back)).dropWhile (· != '\n'))))
        program.units program'.units := by
  obtain ⟨program', log', compiled', leaves_eq, usage_eq, blocks_eq, all⟩ := Program.compile_relabels compiled same
  have of := one.compile_ok compiled
  have of' := other.compile_ok compiled'
  have both := List.forall₂_iff_zip.mp all
  refine ⟨program', log', compiled', leaves_eq, usage_eq, blocks_eq, List.forall₂_iff_zip.mpr ⟨both.1, ?_⟩⟩
  intro unit unit' listed
  have relabels := both.2 listed
  obtain ⟨has, has'⟩ := List.of_mem_zip listed
  obtain ⟨head, source_eq, source_eq'⟩ := relabels.sources
  have text_eq : unit.source.toList = head.toList ++ LeafText.joined unit.leaves := by
    rw [source_eq, String.toList_append, LeafText.joined]
  have text_eq' : unit'.source.toList = head.toList ++ LeafText.joined unit'.leaves := by
    rw [source_eq', String.toList_append, LeafText.joined]
  refine ⟨relabels.entries_eq, relabels.records_eq, relabels.leaves_eq, head, text_eq, text_eq', fun headClosed closed => ?_⟩
  refine ⟨fun lines lines' => ?_, fun front text back split early => ?_⟩
  · rw [text_eq, text_eq']
    exact relabels.eraseComments_eq headClosed closed (of.oneLine lines unit has) (of'.oneLine lines' unit' has')
  · have closed' := relabels.closed closed
    rw [split, List.forall_mem_append] at closed'
    rw [text_eq', split]
    exact LeafText.eraseComments_spill headClosed closed'.1 early

/-- A draw to the surface under a label. -/
def labelledDraw (label : String) : Program where
  library := ""
  root := [.leaf (.draw {
    label
    source := "@vertex fn v() {} @fragment fn f() {}"
    vertex := "v"
    fragment := "f"
    targets := [⟨.surface, .load, .replace⟩] })]

/-- The texts of the units without comments. -/
def CompiledProgram.codes (program : CompiledProgram) : List (List Char) :=
  program.units.map fun unit => eraseComments unit.source.toList

/-- Under another label of one line the draw has the same code; a label of two lines adds code to it. -/
theorem Program.compile_unlabelled_draw :
    ∃ program log plain plainLog spilt spiltLog,
      (labelledDraw "a").compile {} {} = .ok (program, log) ∧
      (labelledDraw "b").compile {} {} = .ok (plain, plainLog) ∧
      (labelledDraw "a\nconst b = 1;").compile {} {} = .ok (spilt, spiltLog) ∧
      plain.leaves = program.leaves ∧ plain.codes = program.codes ∧
      spilt.leaves = program.leaves ∧ spilt.codes ≠ program.codes := by
  -- nothing stands in front of the label, and the draw ends in code
  have closed : ((labelledDraw "a").compile {} {}).toOption.map (fun result => result.1.units.all fun unit =>
      unit.source.toList.length == (LeafText.joined unit.leaves).length &&
        unit.leaves.all fun text => decide (EndsInCode text.body.toList)) = some true := by decide +kernel
  have differ : ((labelledDraw "a\nconst b = 1;").compile {} {}).toOption.map (·.1.codes) ≠
      ((labelledDraw "a").compile {} {}).toOption.map (·.1.codes) := by decide +kernel
  cases compiled : (labelledDraw "a").compile {} {} with
  | error _ =>
    rw [compiled] at closed
    cases closed
  | ok result =>
    obtain ⟨program, log⟩ := result
    rw [compiled] at closed differ
    have same (label : String) : (labelledDraw "a").unlabelled = (labelledDraw label).unlabelled := rfl
    obtain ⟨plain, plainLog, compiled', leaves_eq, -, -, all⟩ := Program.compile_unlabelled compiled (same "b")
    obtain ⟨spilt, spiltLog, compiled'', leaves_eq', -, -, -⟩ :=
      Program.compile_unlabelled compiled (same "a\nconst b = 1;")
    rw [compiled''] at differ
    refine ⟨program, log, plain, plainLog, spilt, spiltLog, rfl, compiled', compiled'', leaves_eq, ?_, leaves_eq',
      fun equal => differ (congrArg some equal)⟩
    have each := List.all_eq_true.mp (Option.some.inj closed)
    have both := List.forall₂_iff_zip.mp all
    rw [CompiledProgram.codes, CompiledProgram.codes, ← List.forall₂_eq_eq_eq, List.forall₂_map_left_iff,
      List.forall₂_map_right_iff]
    refine (List.forall₂_iff_zip.mpr ⟨both.1, fun {unit unit'} listed => ?_⟩ : List.Forall₂ _ _ _).flip
    obtain ⟨-, -, -, head, text_eq, -, read⟩ := both.2 listed
    have here := each unit (List.of_mem_zip listed).1
    rw [Bool.and_eq_true, beq_iff_eq, List.all_eq_true] at here
    have none : head.toList = [] := by
      have length_eq := here.1
      rw [text_eq, List.length_append] at length_eq
      exact List.eq_nil_of_length_eq_zero (by omega)
    have lines : (labelledDraw "a").OneLine := by unfold Program.OneLine; decide +kernel
    have lines' : (labelledDraw "b").OneLine := by unfold Program.OneLine; decide +kernel
    exact (read (none ▸ .nil) fun text listed => of_decide_eq_true (here.2 text listed)).1 lines lines'

end FrameGraph
