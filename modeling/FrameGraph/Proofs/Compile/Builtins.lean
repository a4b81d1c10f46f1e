import FrameGraph.Proofs.Compile.Patches
import FrameGraph.Proofs.Text.Parameters

/-! # Builtin values of entry points

An entry point gets a parameter for a builtin value whose identifier it refers to, or its range check does, unless its
parameters use the identifier or are found to declare the value. The arguments have no say in this, but their names do
in what becomes of the parameters and of the identifier. So the identifier stands for the one parameter with the value
exactly when no argument has its name, the name of the parameter or that of the value.
-/

namespace FrameGraph

open Text

namespace Text

/-! ## Free words -/

theorem freeWordsFrom_append (context : Context) (a b : List Token) : freeWordsFrom context (a ++ b) =
    freeWordsFrom context a ++ freeWordsFrom (a.foldl Context.after context) b := by
  induction a generalizing context with
  | nil => rfl
  | cons token a ih =>
    have later := ih (context.after token)
    cases token with
    | comment text => exact later
    | char c => exact later
    | word text => cases free : context.isFree <;> simp [freeWordsFrom, free, later]

/-- Behind a context that hides more words there are no other free words. -/
theorem freeWordsFrom_subset {a b : Context} (digit : a.digit = b.digit) (marked : b.isMarked = true → a.isMarked = true)
    (row : List Token) : freeWordsFrom a row ⊆ freeWordsFrom b row := by
  induction row generalizing a b with
  | nil => exact List.Subset.refl _
  | cons token row ih =>
    have stays : (b.after token).isMarked = true → (a.after token).isMarked = true := by
      rw [Context.after_isMarked, Context.after_isMarked]
      split
      · exact id
      · exact marked
    have later : freeWordsFrom (a.after token) row ⊆ freeWordsFrom (b.after token) row := ih rfl stays
    cases token with
    | comment text => exact later
    | char c => exact later
    | word text =>
      cases free : a.isFree with
      | false =>
        rw [freeWordsFrom, free, if_neg Bool.false_ne_true, freeWordsFrom]
        split
        · exact List.subset_cons_of_subset _ later
        · exact later
      | true =>
        obtain ⟨noDigit, unmarked⟩ := Context.isFree_iff.mp free
        have free' : b.isFree = true := by
          refine Context.isFree_iff.mpr ⟨digit ▸ noDigit, eq_false_of_ne_true fun mark => ?_⟩
          rw [marked mark] at unmarked
          cases unmarked
        rw [freeWordsFrom, freeWordsFrom, if_pos free, if_pos free']
        exact List.cons_subset_cons _ later

theorem identifier_of_mem {rest : List Char} {row : List Token} (legible : Legible rest row) {context : Context}
    {word : List Char} (member : word ∈ freeWordsFrom context row) : isIdentifier word = true := by
  induction row generalizing context with
  | nil => cases member
  | cons token row ih =>
    cases token with
    | comment text => exact ih legible.2 member
    | char c => exact ih legible.2 member
    | word text =>
      rw [freeWordsFrom] at member
      split at member
      · rcases List.mem_cons.mp member with rfl | later
        · exact (endsAt_word.mp legible.1).1
        · exact ih legible.2 later
      · exact ih legible.2 member

theorem references_eq_true {row : List Token} {name : String} :
    references row name = true ↔ name.toList ∈ freeWords row := by
  simp [references]

theorem Renames.apply_eq (renames : Renames) (name : String) :
    renames.apply name.toList = ((renames.lookup name).map String.toList).getD name.toList := by
  rw [Renames.apply, String.ofList_toList]
  cases renames.lookup name <;> rfl

end Text

/-! ## Variables for arguments -/

namespace Compile

variable {entry : String} {names : List String}

theorem lookup_globalsOf (entry : String) (names : List String) (name : String) :
    (globalsOf entry names).lookup name = if name ∈ names then some (Naming.global entry name) else none := by
  split
  · rename_i listed
    cases found : (globalsOf entry names).lookup name with
    | none =>
      have pair : (name, Naming.global entry name) ∈ globalsOf entry names :=
        List.mem_reverse.mpr (List.mem_map_of_mem listed)
      have apart := List.lookup_eq_none_iff.mp found _ pair
      simp at apart
    | some new =>
      obtain ⟨front, back, split, -⟩ := List.lookup_eq_some_iff.mp found
      have pair : (name, new) ∈ globalsOf entry names := by simp [split]
      obtain ⟨other, -, same⟩ := List.mem_map.mp (List.mem_reverse.mp pair)
      obtain ⟨rfl, rfl⟩ := Prod.mk.inj same
      rfl
  · rename_i other
    rw [List.lookup_eq_none_iff]
    intro pair member
    obtain ⟨listed, has, rfl⟩ := List.mem_map.mp (List.mem_reverse.mp member)
    exact bne_iff_ne.mpr fun same => other (same ▸ has)

theorem apply_globalsOf (entry : String) (names : List String) (name : String) :
    (globalsOf entry names).apply name.toList =
      if name ∈ names then (Naming.global entry name).toList else name.toList := by
  rw [Renames.apply_eq, lookup_globalsOf]
  split <;> rfl

theorem global_ne_name (entry name : String) : Naming.global entry name ≠ name := by
  intro same
  have length := congrArg (·.toList.length) same
  simp only [Naming.toList_global, List.length_append, List.length_cons] at length
  omega

/-- A name stays as it is unless it is the name of an argument. -/
theorem apply_globalsOf_eq {name : String} :
    (globalsOf entry names).apply name.toList = name.toList ↔ name ∉ names := by
  rw [apply_globalsOf]
  split
  · rename_i listed
    exact iff_of_false (fun same => global_ne_name entry name (String.toList_inj.mp same)) (not_not_intro listed)
  · rename_i other
    exact iff_of_true rfl other

/-- A name without two underscores in a row is given to no argument. -/
theorem globalsOf_avoids {name : String} (plain : ¬['_', '_'] <:+: name.toList) :
    (globalsOf entry names).Avoids name.toList := by
  intro word given
  have spelled := apply_globalsOf entry names (String.ofList word)
  rw [String.toList_ofList, given, Naming.toList_global, String.toList_ofList] at spelled
  split at spelled
  · exact absurd ⟨entry.toList, word, by simp [spelled]⟩ plain
  · exact spelled.symm

/-- Of the names of arguments those count that are spelled like words. -/
def wordsOf (names : List String) : List String := names.filter (·.toList.all isWordChar)

theorem globalsOf_wordsOf_spelled (spelled : isIdentifier entry.toList = true) :
    (globalsOf entry (wordsOf names)).Spelled := by
  refine spelled_of_forall fun pair member => ?_
  obtain ⟨name, kept, rfl⟩ := List.mem_map.mp (List.mem_reverse.mp member)
  exact Naming.isIdentifier_global spelled (List.all_eq_true.mp (List.mem_filter.mp kept).2)

theorem apply_wordsOf (entry : String) (names : List String) {word : List Char} (identifier : isIdentifier word = true) :
    (globalsOf entry names).apply word = (globalsOf entry (wordsOf names)).apply word := by
  have words : word.all isWordChar = true := List.all_eq_true.mpr fun c => isWordChar_of_mem identifier
  have all := apply_globalsOf entry names (String.ofList word)
  have some := apply_globalsOf entry (wordsOf names) (String.ofList word)
  rw [String.toList_ofList] at all some
  simp only [wordsOf, List.mem_filter, String.toList_ofList, words, and_true] at some
  rw [all, wordsOf, some]

theorem renamedRow_wordsOf {rest : List Char} {row : List Token} (legible : Legible rest row) (entry : String)
    (names : List String) :
    renamedRow (globalsOf entry names) .start row = renamedRow (globalsOf entry (wordsOf names)) .start row :=
  renamedRow_congr fun _ member => apply_wordsOf entry names (identifier_of_mem legible member)

end Compile

/-! ## One builtin after the other -/

namespace EntryJob

variable {job : EntryJob} {forced : List String} {patch : Patch} {builtin : Builtin}

/-- The names that stand for its arguments. -/
def names (job : EntryJob) : List String := job.arguments.flatMap argumentNames

/-- The name of the parameter that is found to have the builtin value. -/
def declared? (job : EntryJob) (builtin : Builtin) : Option String :=
  declaredBuiltin? (render job.entry.params) builtin.value

/-- A parameter is added for the builtin value. -/
def adds (job : EntryJob) (forced : List String) (builtin : Builtin) : Bool :=
  job.wants forced builtin && (job.declared? builtin).isNone

/-- The parameter that takes the place of the identifier. -/
def alias? (job : EntryJob) (forced : List String) (builtin : Builtin) : Option String :=
  if job.wants forced builtin then job.declared? builtin else none

theorem lookup_bindBuiltin (job : EntryJob) (forced : List String) (patch : Patch) (builtin : Builtin) (name : String) :
    (job.bindBuiltin forced patch builtin).identifiers.lookup name =
      (if builtin.ident = name then job.alias? forced builtin else none).or (patch.identifiers.lookup name) := by
  unfold bindBuiltin alias? declared?
  split
  · cases declaredBuiltin? (render job.entry.params) builtin.value with
    | none => simp [Patch.addParameter]
    | some existing =>
      by_cases same : builtin.ident = name
      · simp [Patch.rename, same]
      · have apart : (name == builtin.ident) = false := beq_false_of_ne (Ne.symm same)
        simp [Patch.rename, List.lookup_cons, same, apart]
  · simp

theorem lookup_foldl_bindBuiltin {builtins : List Builtin} (distinct : (builtins.map (·.ident)).Nodup) (patch : Patch)
    (name : String) : (builtins.foldl (job.bindBuiltin forced) patch).identifiers.lookup name =
      ((builtins.find? (·.ident = name)).bind (job.alias? forced)).or (patch.identifiers.lookup name) := by
  induction builtins generalizing patch with
  | nil => rfl
  | cons builtin rest ih =>
    rw [List.map_cons, List.nodup_cons] at distinct
    rw [List.foldl_cons, ih distinct.2, lookup_bindBuiltin]
    by_cases same : builtin.ident = name
    · have last : rest.find? (·.ident = name) = none := by
        rw [List.find?_eq_none]
        intro other member again
        exact distinct.1 (same ▸ of_decide_eq_true again ▸ List.mem_map_of_mem member)
      rw [last, List.find?_cons_of_pos (by simpa using same), if_pos same]
      rfl
    · rw [List.find?_cons_of_neg (by simpa using same), if_neg same, Option.none_or]

theorem parameters_foldl_bindBuiltin (builtins : List Builtin) (patch : Patch) :
    (builtins.foldl (job.bindBuiltin forced) patch).parameters =
      patch.parameters ++ (builtins.filter (job.adds forced)).map Builtin.parameter := by
  induction builtins generalizing patch with
  | nil => simp
  | cons builtin rest ih =>
    have one : (job.bindBuiltin forced patch builtin).parameters =
        patch.parameters ++ if job.adds forced builtin then [builtin.parameter] else [] := by
      unfold bindBuiltin adds declared?
      cases job.wants forced builtin with
      | false => simp
      | true => cases declaredBuiltin? (render job.entry.params) builtin.value <;> simp [Patch.addParameter, Patch.rename]
    rw [List.foldl_cons, ih, one, List.filter_cons, List.append_assoc]
    split <;> rfl

end EntryJob

theorem Stage.builtins_distinct (stage : Stage) :
    (stage.builtins.map (·.ident)).Nodup ∧ (stage.builtins.map (·.value)).Nodup := by
  cases stage <;> decide

/-- Values are spelled like words but not like a variable of an entry point. -/
theorem Builtin.plain {stage : Stage} {builtin : Builtin} (listed : builtin ∈ stage.builtins) :
    builtin.ident ≠ gridSizeName ∧ ¬['_', '_'] <:+: builtin.value.toList ∧
      isIdentifier builtin.value.toList = true := by
  have all : ∀ stage : Stage, ∀ builtin ∈ stage.builtins, builtin.ident ≠ gridSizeName ∧
      ¬['_', '_'] <:+: builtin.value.toList ∧ isIdentifier builtin.value.toList = true := by
    intro stage
    cases stage <;> decide +kernel
  exact all stage builtin listed

namespace EntryJob

variable {job : EntryJob} {forced : List String} {patch : Patch} {builtin : Builtin}

theorem find?_builtin (listed : builtin ∈ job.stage.builtins) :
    job.stage.builtins.find? (·.ident = builtin.ident) = some builtin := by
  cases found : job.stage.builtins.find? (·.ident = builtin.ident) with
  | none => simpa using List.find?_eq_none.mp found builtin listed
  | some other =>
    have same : other.ident = builtin.ident := by simpa using List.find?_some found
    rw [List.inj_on_of_nodup_map job.stage.builtins_distinct.1 (List.mem_of_find?_eq_some found) listed same]

/-- The identifier of a builtin value stands for the parameter that is found, or for what it stood for before. -/
theorem lookup_bindBuiltins (listed : builtin ∈ job.stage.builtins) :
    (job.bindBuiltins forced patch).identifiers.lookup builtin.ident =
      (job.alias? forced builtin).or (patch.identifiers.lookup builtin.ident) := by
  rw [bindBuiltins, lookup_foldl_bindBuiltin job.stage.builtins_distinct.1, find?_builtin listed]
  rfl

/-- The names in the parameters stand for what they stood for before. -/
theorem lookup_bindBuiltins_params {name : String} (used : references job.entry.params name = true) :
    (job.bindBuiltins forced patch).identifiers.lookup name = patch.identifiers.lookup name := by
  rw [bindBuiltins, lookup_foldl_bindBuiltin job.stage.builtins_distinct.1]
  cases found : job.stage.builtins.find? (·.ident = name) with
  | none => rfl
  | some builtin =>
    have same : builtin.ident = name := by simpa using List.find?_some found
    have unwanted : job.wants forced builtin = false := by simp [wants, same, used]
    simp [alias?, unwanted]

/-! ## What the identifiers stand for -/

/-- The body refers to the identifier, or the range check needs it. -/
def Needs (job : EntryJob) (checked : Bool) (builtin : Builtin) : Prop :=
  references job.entry.body builtin.ident = true ∨ (checked = true ∧ builtin.ident = "gid")

/-- The identifiers that an entry point needs without referring to them. -/
def forcedBy (checked : Bool) : List String := if checked then ["gid"] else []

/-- The parameters end in `.` or `@`, comments included, so that a word behind them is no reference. -/
def endsMarked (job : EntryJob) : Bool := (job.entry.params.foldl Context.after .start).isMarked

/-- What the identifier needs to stand for the parameter with its value: no argument takes its name, or that of the
value or the parameter that is there. -/
def Unhindered (job : EntryJob) (builtin : Builtin) : Prop :=
  match job.declared? builtin with
  | none => builtin.ident ∉ job.names
  | some existing => builtin.value ∉ job.names ∧ existing ∉ job.names

/-- The patched parameters give the value to one parameter, and its name takes the place of the identifier. -/
def BindsOnce (job : EntryJob) (patch : Patch) (builtin : Builtin) : Prop :=
  builtinNames builtin.value.toList (Text.tokens (job.entry.patchedParams patch)) =
    [some (patch.identifiers.apply builtin.ident.toList)]

theorem references_code (job : EntryJob) (name : String) : references job.code name = true ↔
    references job.entry.params name = true ∨ name.toList ∈
      freeWordsFrom ((job.entry.params.foldl Context.after .start).after (.char '\n')) job.entry.body := by
  rw [references_eq_true, references_eq_true, code, freeWords, freeWordsFrom_append, List.mem_append]
  rfl

/-- Builtin values that are wanted are needed, and what the parameters do not use is wanted if it is needed; only a mark
at the end of the parameters can hide the first word of the body. -/
theorem wants_forcedBy (job : EntryJob) (checked : Bool) (builtin : Builtin) :
    (job.wants (forcedBy checked) builtin = true →
      references job.entry.params builtin.ident = false ∧ job.Needs checked builtin) ∧
    (job.endsMarked = false → references job.entry.params builtin.ident = false → job.Needs checked builtin →
      job.wants (forcedBy checked) builtin = true) := by
  have forced : (forcedBy checked).contains builtin.ident = true ↔ checked = true ∧ builtin.ident = "gid" := by
    cases checked <;> simp [forcedBy]
  have used (name : String) := job.references_code name
  generalize behind : (job.entry.params.foldl Context.after .start).after (.char '\n') = context at used
  have digit : context.digit = Context.start.digit := behind ▸ rfl
  have marked : context.isMarked = job.endsMarked := behind ▸ Context.after_isMarked _ _
  have fewer : freeWordsFrom context job.entry.body ⊆ freeWords job.entry.body :=
    freeWordsFrom_subset digit (fun mark => Bool.noConfusion mark) _
  rw [wants, Bool.and_eq_true, Bool.or_eq_true, forced, used, Bool.not_eq_true', Needs]
  constructor
  · rintro ⟨need | inside | behind, unused⟩
    · exact ⟨unused, .inr need⟩
    · rw [inside] at unused
      cases unused
    · exact ⟨unused, .inl (references_eq_true.mpr (fewer behind))⟩
  · rintro unmarked unused (inside | need)
    · have more : freeWords job.entry.body ⊆ freeWordsFrom context job.entry.body := by
        refine freeWordsFrom_subset digit.symm (fun mark => ?_) _
        rw [marked, unmarked] at mark
        cases mark
      exact ⟨.inr (.inr (more (references_eq_true.mp inside))), unused⟩
    · exact ⟨.inl need, unused⟩

end EntryJob

/-- A patch with the names of the variables for the arguments, and no parameters yet. The extent of the grid may have
its name, too, if the parameters do not use it. -/
structure Patch.NamesArguments (patch : Patch) (job : EntryJob) (entry : String) : Prop where
  parameters : patch.parameters = []
  lookup_eq : ∀ name, (name = gridSizeName → references job.entry.params name = true) →
    patch.identifiers.lookup name = (Compile.globalsOf entry job.names).lookup name

/-- How the builtin values of an entry point are bound. -/
structure EntryJob.BindsBuiltins (job : EntryJob) (entry : String) (checked : Bool) (patch : Patch) : Prop where
  /-- A parameter is added, once and in the order of the table, for what is wanted and not found declared. -/
  added : patch.parameters = (job.stage.builtins.filter (job.adds (forcedBy checked))).map Builtin.parameter
  needed : ∀ builtin, job.wants (forcedBy checked) builtin = true →
    references job.entry.params builtin.ident = false ∧ job.Needs checked builtin
  wanted : job.endsMarked = false → ∀ builtin, references job.entry.params builtin.ident = false →
    job.Needs checked builtin → job.wants (forcedBy checked) builtin = true
  /-- The name of a parameter that is found comes before the variable of an argument. -/
  lookup_eq : ∀ builtin ∈ job.stage.builtins, patch.identifiers.lookup builtin.ident =
    (job.alias? (forcedBy checked) builtin).or
      (if builtin.ident ∈ job.names then some (Naming.global entry builtin.ident) else none)
  /-- The body refers to what its words stand for. -/
  body_eq : job.entry.patchedBody patch =
    patch.prologue.toList ++ render (renamedRow patch.identifiers .start job.entry.body)
  /-- The new parameters stand in front of the old ones, in which names of arguments get their new names. -/
  params_eq : ∃ joint, (∀ token ∈ joint, token = .char ',' ∨ token = .char ' ') ∧
    Text.tokens (job.entry.patchedParams patch) = parameterRow patch.parameters
      (joint ++ renamedRow (Compile.globalsOf entry job.names) .start job.entry.params)
  /-- The parameters with the value are the one that is added and those that are there, with arguments renamed. -/
  declares : ∀ builtin ∈ job.stage.builtins,
    builtinNames builtin.value.toList (Text.tokens (job.entry.patchedParams patch)) =
      (if job.adds (forcedBy checked) builtin then [some builtin.ident.toList] else []) ++
        builtinNames builtin.value.toList (renamedRow (Compile.globalsOf entry job.names) .start job.entry.params)
  /-- Where declarations can be seen, a wanted identifier stands for the one parameter with its value unless a name of
  an argument is in the way. -/
  once_iff : ∀ builtin ∈ job.stage.builtins, job.wants (forcedBy checked) builtin = true →
    Clear builtin.value.toList job.entry.params → (job.BindsOnce patch builtin ↔ job.Unhindered builtin)

/-- Of the builtins of a stage one has the value. -/
theorem Builtin.filter_value {builtins : List Builtin} (distinct : (builtins.map (·.value)).Nodup) {builtin : Builtin}
    (listed : builtin ∈ builtins) : builtins.filter (·.value.toList = builtin.value.toList) = [builtin] := by
  induction builtins with
  | nil => cases listed
  | cons first rest ih =>
    rw [List.map_cons, List.nodup_cons] at distinct
    rcases List.mem_cons.mp listed with rfl | later
    · have none : rest.filter (·.value.toList = builtin.value.toList) = [] := by
        rw [List.filter_eq_nil_iff]
        intro other member same
        have same := String.toList_inj.mp (of_decide_eq_true same)
        exact distinct.1 (same ▸ List.mem_map_of_mem member)
      rw [List.filter_cons_of_pos (by simp), none]
    · have apart : first.value ≠ builtin.value := fun same => distinct.1 (same ▸ List.mem_map_of_mem later)
      rw [List.filter_cons_of_neg (by simpa [String.toList_inj] using apart), ih distinct.2 later]

/-- With clear declarations the parameters that had the value have it, under their new names, unless the value is the
name of an argument. -/
theorem EntryJob.builtinNames_globals {job : EntryJob} {builtin : Builtin} (listed : builtin ∈ job.stage.builtins)
    (legible : Legible [] job.entry.params) (clear : Clear builtin.value.toList job.entry.params) (entry : String) :
    builtinNames builtin.value.toList (renamedRow (Compile.globalsOf entry job.names) .start job.entry.params) =
      if builtin.value ∈ job.names then [] else ((job.declared? builtin).map fun existing =>
        some ((Compile.globalsOf entry job.names).apply existing.toList)).toList := by
  obtain ⟨-, plain, identifier⟩ := Builtin.plain listed
  have keeps : (Compile.globalsOf entry job.names).Avoids builtinWord := by
    have word : "builtin".toList = builtinWord := by decide +kernel
    exact word ▸ Compile.globalsOf_avoids (by decide +kernel)
  rw [builtinNames_renamedRow clear.plain keeps (Compile.globalsOf_avoids plain),
    clear.builtinNames_eq identifier legible, EntryJob.declared?]
  by_cases argument : builtin.value ∈ job.names
  · rw [if_pos argument, if_neg fun same => Compile.apply_globalsOf_eq.mp same argument]
  · rw [if_neg argument, if_pos (Compile.apply_globalsOf_eq.mpr argument)]
    cases declaredBuiltin? (render job.entry.params) builtin.value <;> rfl

namespace Patch.NamesArguments

variable {patch : Patch} {job : EntryJob} {entry : String} {checked : Bool} {builtin : Builtin}

/-- In the parameters only the names of arguments get new names. -/
theorem renamedRow_params (named : patch.NamesArguments job entry) (forced : List String) :
    renamedRow (job.bindBuiltins forced patch).identifiers .start job.entry.params =
      renamedRow (Compile.globalsOf entry job.names) .start job.entry.params := by
  refine renamedRow_congr fun word member => ?_
  have used : references job.entry.params (String.ofList word) = true := by
    rw [references_eq_true, String.toList_ofList]
    exact member
  rw [Renames.apply, Renames.apply, EntryJob.lookup_bindBuiltins_params used, named.lookup_eq _ fun _ => used]

theorem parameters_eq (named : patch.NamesArguments job entry) (forced : List String) :
    (job.bindBuiltins forced patch).parameters =
      (job.stage.builtins.filter (job.adds forced)).map Builtin.parameter := by
  rw [EntryJob.bindBuiltins, EntryJob.parameters_foldl_bindBuiltin, named.parameters, List.nil_append]

theorem tokens_params (named : patch.NamesArguments job entry) (spelled : isIdentifier entry.toList = true)
    (legible : Legible [] job.entry.params) (forced : List String) :
    ∃ joint, (∀ token ∈ joint, token = .char ',' ∨ token = .char ' ') ∧
      Text.tokens (job.entry.patchedParams (job.bindBuiltins forced patch)) =
        parameterRow (job.bindBuiltins forced patch).parameters
          (joint ++ renamedRow (Compile.globalsOf entry job.names) .start job.entry.params) := by
  have own : ∀ added ∈ job.stage.builtins.filter (job.adds forced), added ∈ job.stage.builtins :=
    fun added member => List.mem_of_mem_filter member
  have same := Compile.renamedRow_wordsOf legible entry job.names
  rw [same]
  exact EntryPoint.tokens_patchedParams own (named.parameters_eq forced) legible
    (Compile.globalsOf_wordsOf_spelled spelled) ((named.renamedRow_params forced).trans same)

theorem declares (named : patch.NamesArguments job entry) (spelled : isIdentifier entry.toList = true)
    (legible : Legible [] job.entry.params) (forced : List String) (listed : builtin ∈ job.stage.builtins) :
    builtinNames builtin.value.toList (Text.tokens (job.entry.patchedParams (job.bindBuiltins forced patch))) =
      (if job.adds forced builtin then [some builtin.ident.toList] else []) ++
        builtinNames builtin.value.toList (renamedRow (Compile.globalsOf entry job.names) .start job.entry.params) := by
  have own : ∀ added ∈ job.stage.builtins.filter (job.adds forced), added ∈ job.stage.builtins :=
    fun added member => List.mem_of_mem_filter member
  obtain ⟨joint, blank, row⟩ := named.tokens_params spelled legible forced
  have quiet : .char '@' ∉ joint := by
    intro mark
    obtain same | same := blank _ mark <;> cases same
  rw [row, named.parameters_eq, builtinNames_parameterRow own, builtinNames_append quiet, List.filter_comm,
    Builtin.filter_value job.stage.builtins_distinct.2 listed, List.filter_singleton]
  cases job.adds forced builtin <;> rfl

theorem lookup_ident (named : patch.NamesArguments job entry) (forced : List String)
    (listed : builtin ∈ job.stage.builtins) : (job.bindBuiltins forced patch).identifiers.lookup builtin.ident =
      (job.alias? forced builtin).or
        (if builtin.ident ∈ job.names then some (Naming.global entry builtin.ident) else none) := by
  rw [EntryJob.lookup_bindBuiltins listed, named.lookup_eq _ fun same => absurd same (Builtin.plain listed).1,
    Compile.lookup_globalsOf]

/-- A wanted identifier stands for the one parameter with its value exactly when no name of an argument is in the way. -/
theorem bindsOnce_iff (named : patch.NamesArguments job entry) (spelled : isIdentifier entry.toList = true)
    (legible : Legible [] job.entry.params) {forced : List String} (listed : builtin ∈ job.stage.builtins)
    (wanted : job.wants forced builtin = true) (clear : Clear builtin.value.toList job.entry.params) :
    job.BindsOnce (job.bindBuiltins forced patch) builtin ↔ job.Unhindered builtin := by
  have ident : (job.bindBuiltins forced patch).identifiers.apply builtin.ident.toList =
      ((job.declared? builtin).map String.toList).getD
        ((Compile.globalsOf entry job.names).apply builtin.ident.toList) := by
    rw [Renames.apply_eq, named.lookup_ident forced listed, EntryJob.alias?, if_pos wanted, Compile.apply_globalsOf]
    cases job.declared? builtin with
    | some existing => rfl
    | none => split <;> rfl
  rw [EntryJob.BindsOnce, EntryJob.Unhindered, named.declares spelled legible forced listed,
    EntryJob.builtinNames_globals listed legible clear, ident, EntryJob.adds, wanted, Bool.true_and]
  cases job.declared? builtin with
  | none =>
    have none : (if builtin.value ∈ job.names then [] else ([] : List (Option (List Char)))) = [] := ite_self _
    have own : (Compile.globalsOf entry job.names).apply builtin.ident.toList = builtin.ident.toList ↔
        builtin.ident ∉ job.names := Compile.apply_globalsOf_eq
    simpa [none, eq_comm] using own
  | some existing =>
    by_cases argument : builtin.value ∈ job.names
    · simp [argument]
    · simpa [argument] using Compile.apply_globalsOf_eq

/-- What binding the builtin values comes to. -/
theorem bindsBuiltins (named : patch.NamesArguments job entry) (spelled : isIdentifier entry.toList = true)
    (legible : Legible [] job.entry.params) (checked : Bool) :
    job.BindsBuiltins entry checked (job.bindBuiltins (EntryJob.forcedBy checked) patch) where
  added := named.parameters_eq _
  needed builtin := (job.wants_forcedBy checked builtin).1
  wanted unmarked builtin := (job.wants_forcedBy checked builtin).2 unmarked
  lookup_eq _ := named.lookup_ident _
  body_eq := by rw [EntryPoint.patchedBody, Text.rename, renameFrom_eq_render]
  params_eq := named.tokens_params spelled legible _
  declares _ := named.declares spelled legible _
  once_iff _ listed wanted := named.bindsOnce_iff spelled legible listed wanted

end Patch.NamesArguments

/-- Lines at the top of the body change nothing. -/
theorem EntryJob.BindsBuiltins.withPrologue {job : EntryJob} {entry : String} {checked : Bool} {patch : Patch}
    (binds : job.BindsBuiltins entry checked patch) (text : String) :
    job.BindsBuiltins entry checked { patch with prologue := text } where
  added := binds.added
  needed := binds.needed
  wanted := binds.wanted
  lookup_eq := binds.lookup_eq
  body_eq := by rw [EntryPoint.patchedBody, rename, renameFrom_eq_render]
  params_eq := binds.params_eq
  declares := binds.declares
  once_iff := binds.once_iff

/-! ## Compiled entry points -/

/-- It is a kernel that checks the range of its threads. -/
def CompiledLeaf.checked : CompiledLeaf → Bool
  | .dispatch kernel => kernel.grid.boundsCheck
  | .draw _ | .host => false

/-- The text is the entry point of a source, edited by a patch that binds its builtin values. -/
def EntryText.BindsBuiltins (checked : Bool) (origin : EntryOrigin) (text : EntryText) : Prop :=
  ∃ job patch, EntryJob.locate origin.source origin.stage origin.name origin.arguments = .ok job ∧
    text.code = job.entry.apply patch ∧ job.BindsBuiltins text.entry checked patch

namespace Compile

variable {table : ResourceTable} {caps : DeviceCaps} {state after : CompileState} {unit : Nat} {job : EntryJob}
  {entry : String}

theorem locate_legible {source : String} {stage : Stage} {name : String} {arguments : List Argument}
    (located : EntryJob.locate source stage name arguments = .ok job) : Legible [] job.entry.params := by
  obtain ⟨entry, found, rfl⟩ := locate_found located
  exact (EntryPoint.legible_header found).2

theorem namesArguments_namePatch (job : EntryJob) (entry : String) (attr : Option String) :
    ((namePatch job entry attr).renamedBy (globalsOf entry job.names)).NamesArguments job entry where
  parameters := rfl
  lookup_eq name _ := by rw [Patch.renamedBy, namePatch, Patch.empty, List.append_nil]

theorem namesArguments_bindGrid {plan : GridPlan} {scan : ArgumentScan} (named : scan.patch.NamesArguments job entry) :
    (bindGrid job entry plan scan).2.patch.NamesArguments job entry := by
  unfold bindGrid
  dsimp only
  split
  · exact named
  · rename_i unused
    split
    · refine ⟨named.parameters, fun name used => ?_⟩
      have apart : (name == gridSizeName) = false := by
        refine beq_false_of_ne ?_
        rintro rfl
        exact unused (used rfl)
      rw [Patch.rename, List.lookup_cons, apart]
      exact named.lookup_eq name used
    · exact named

theorem kernelPrologue_eq (job : EntryJob) (entry : String) (plan : GridPlan) (patch : Patch) :
    ∃ text, kernelPrologue job entry plan patch = { patch with prologue := text } := by
  unfold kernelPrologue
  dsimp only
  split <;> split <;> exact ⟨_, rfl⟩

theorem KernelRun.bindsBuiltins {node : Dispatch} (made : KernelRun table caps unit node state) :
    made.job.BindsBuiltins made.entry made.compiled.grid.boundsCheck
      (kernelPatch made.job made.entry made.granted.1 made.granted.2) := by
  have named : made.scan.patch.NamesArguments made.job made.entry :=
    bindArguments_patch made.binds ▸ namesArguments_namePatch made.job made.entry made.attr
  obtain ⟨text, prologued⟩ := kernelPrologue_eq made.job made.entry made.granted.1
    (made.job.bindBuiltins (EntryJob.forcedBy made.granted.1.boundsCheck) made.granted.2.patch)
  rw [kernelPatch]
  exact prologued ▸ ((namesArguments_bindGrid named).bindsBuiltins made.entry_identifier
    (locate_legible made.located) _).withPrologue text

theorem EntryRun.bindsBuiltins {pool : IndexPool} {bindings : LeafBindings}
    (made : EntryRun table unit job pool bindings state) {origin : EntryOrigin}
    (located : EntryJob.locate origin.source origin.stage origin.name origin.arguments = .ok job)
    (declarations : List Declaration) : EntryText.BindsBuiltins false origin ⟨made.entry, declarations, made.code⟩ := by
  have named : made.scan.patch.NamesArguments job made.entry :=
    bindArguments_patch made.binds ▸ namesArguments_namePatch job made.entry none
  have spelled := giveEntry_identifier (locate_identifier located) made.names
  exact ⟨job, _, located, rfl, named.bindsBuiltins spelled (locate_legible located) false⟩

theorem LeafRun.bindsBuiltins {node : Leaf} {compiled : CompiledLeaf} {text : LeafText}
    (run : LeafRun table caps unit state node compiled text after) :
    List.Forall₂ (EntryText.BindsBuiltins compiled.checked) node.origins text.entries := by
  cases run with
  | kernel made => exact .cons ⟨made.job, _, made.located, rfl, made.bindsBuiltins⟩ .nil
  | draw made =>
    exact .cons (made.first.bindsBuiltins made.vertexLocated _)
      (.cons (made.second.bindsBuiltins made.fragmentLocated _) .nil)

end Compile

/-- The entry points in the text of a unit are those of its leaves, each edited by a patch that binds its builtin
values. -/
theorem Program.builtins_bound {table : ResourceTable} {caps : DeviceCaps} {source : Program} {program : CompiledProgram}
    {log : List LogLine} (compiled : source.compile table caps = .ok (program, log)) {place : Nat} {unit : CompiledUnit}
    (found : program.units[place]? = some unit) :
    List.Forall₂ (fun origin text => EntryText.BindsBuiltins origin.1 origin.2 text)
      (((source.compiledLeaves program).filter (·.2.unit? = some place)).flatMap fun leaf =>
        leaf.1.node.origins.map (leaf.2.checked, ·))
      (unit.leaves.flatMap (·.entries)) := by
  obtain ⟨⟨last, emits⟩, -⟩ := Program.compile_emitted compiled found
  refine List.rel_flatMap emits ?_
  rintro leaf text ⟨before, after, -, -, run, -⟩
  exact List.forall₂_map_left_iff.mpr run.bindsBuiltins

/-- A kernel that declares the global id with a blank behind `@builtin`, and has an argument called `lid`. -/
def spacedOrigin : EntryOrigin :=
  ⟨"@compute fn k(@builtin (global_invocation_id) id: vec3<u32>) \x7b lid[gid.x] = 1u; \x7d", .compute, "k",
    [⟨"lid", none, none, .buffer ⟨0⟩ (.storage false)⟩]⟩

def spacedProgram : Program where
  library := ""
  root := [.leaf (.dispatch {
    label := "k"
    source := spacedOrigin.source
    function := "k"
    arguments := spacedOrigin.arguments
    fits := [.fixed ⟨4, 1, 1⟩] })]

/-- It gets a second parameter for the global id, and one for the local id, which it has no use for. -/
theorem Program.builtins_bound_spaced :
    ∃ program log unit text, ∃ (job : EntryJob) (patch : Patch),
      spacedProgram.compile { buffers := [⟨"x", .scalar .u32, 4, .fixed 4⟩] } {} = .ok (program, log) ∧
      program.units[0]? = some unit ∧ text ∈ unit.leaves.flatMap (·.entries) ∧ text.code = job.entry.apply patch ∧
      job.BindsBuiltins text.entry true patch ∧
      patch.parameters =
        ["@builtin(global_invocation_id) gid: vec3<u32>", "@builtin(local_invocation_id) lid: vec3<u32>"] ∧
      builtinNames "global_invocation_id".toList (Text.tokens (job.entry.patchedParams patch)) =
        [some "gid".toList, some "id".toList] := by
  have run : (spacedProgram.compile { buffers := [⟨"x", .scalar .u32, 4, .fixed 4⟩] } {}).toOption.map (fun result =>
      (result.1.units.map fun unit => (unit.leaves.flatMap (·.entries)).map (·.entry),
        result.1.leaves.map fun leaf => (leaf.unit?, leaf.checked))) = some ([["k"]], [(some 0, true)]) := by
    decide +kernel
  have values : (EntryJob.locate spacedOrigin.source .compute "k" spacedOrigin.arguments).toOption.map (fun job =>
      (job.stage, job.stage.builtins.filter (job.adds (EntryJob.forcedBy true)),
        builtinNames "global_invocation_id".toList
          (renamedRow (Compile.globalsOf "k" job.names) .start job.entry.params))) =
      some (.compute, [⟨"gid", "global_invocation_id", "vec3<u32>"⟩, ⟨"lid", "local_invocation_id", "vec3<u32>"⟩],
        [some "id".toList]) := by decide +kernel
  obtain ⟨⟨program, log⟩, read, lists⟩ := Option.map_eq_some_iff.mp run
  have compiled := ok_of_toOption read
  obtain ⟨units, leaves⟩ := Prod.mk.inj lists
  obtain ⟨unit, units, entries⟩ := List.map_eq_singleton_iff.mp units
  obtain ⟨text, texts, named⟩ := List.map_eq_singleton_iff.mp entries
  obtain ⟨leaf, leaves, kind⟩ := List.map_eq_singleton_iff.mp leaves
  obtain ⟨place, checked⟩ := Prod.mk.inj kind
  have found : program.units[0]? = some unit := by
    change program.units = [unit] at units
    rw [units]
    rfl
  have flat : (Flattened.ofProgram spacedProgram).leaves.map (·.node.origins) = [[spacedOrigin]] := rfl
  obtain ⟨flat, flats, origins⟩ := List.map_eq_singleton_iff.mp flat
  have bound := spacedProgram.builtins_bound compiled found
  change program.leaves = [leaf] at leaves
  rw [texts, Program.compiledLeaves, flats, leaves] at bound
  have bound : text.BindsBuiltins true spacedOrigin := by simpa [place, checked, origins] using bound
  obtain ⟨job, patch, located, code_eq, binds⟩ := bound
  have located : EntryJob.locate spacedOrigin.source .compute "k" spacedOrigin.arguments = .ok job := located
  rw [located] at values
  obtain ⟨stage, values⟩ := Prod.mk.inj (Option.some.inj values)
  obtain ⟨added, declares⟩ := Prod.mk.inj values
  have first : (⟨"gid", "global_invocation_id", "vec3<u32>"⟩ : Builtin) ∈ job.stage.builtins := stage ▸ .head _
  have kept : (⟨"gid", "global_invocation_id", "vec3<u32>"⟩ : Builtin) ∈
      job.stage.builtins.filter (job.adds (EntryJob.forcedBy true)) := by
    rw [added]
    exact .head _
  have names := binds.declares _ first
  rw [named, if_pos (List.mem_filter.mp kept).2, declares] at names
  refine ⟨program, log, unit, text, job, patch, compiled, found, texts ▸ .head _, code_eq, binds, ?_, names⟩
  rw [binds.added, added]
  decide

end FrameGraph
