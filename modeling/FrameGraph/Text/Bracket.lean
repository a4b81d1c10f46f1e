import FrameGraph.Text.Token

/-! # Bracketed groups

Round and curly brackets outside comments pair up; square and angle brackets are ordinary characters.
`splitGroup` cuts the text after an opening bracket into the inside of the group and what follows its
closing bracket; `owed` lists the closing brackets still missing, innermost first. Offsets are UTF-8
bytes of the whole text.
-/

namespace FrameGraph

/-- Why an entry point cannot be found. -/
inductive PatchError where
  | functionNotFound (mark name : String)
  /-- A bracket without its partner. -/
  | unbalancedBrackets (bracket : Char) (offset : Nat)
deriving DecidableEq, Repr

def PatchError.message : PatchError → String
  | .functionNotFound mark name => s!"no `{mark}` function named `{name}` found"
  | .unbalancedBrackets bracket offset => s!"unbalanced `{bracket}` at byte {offset}"

namespace Text

def isOpener (c : Char) : Bool := c == '(' || c == '\x7b'

def isCloser (c : Char) : Bool := c == ')' || c == '\x7d'

/-- The closing bracket of an opening one. -/
def closerOf (c : Char) : Char := if c = '\x7b' then '\x7d' else ')'

/-- Split at the bracket that closes the last entry of `owed`; `unclosed` is the error at the end of
the text and `offset` the offset of the first token. -/
def splitClosed (unclosed : PatchError) (offset : Nat) (owed : List Char) :
    List Token → Except PatchError (List Token × List Token)
  | [] => .error unclosed
  | token :: rest =>
    let next := offset + token.size
    let keep (split : Except PatchError (List Token × List Token)) :=
      split.map fun (inside, after) => (token :: inside, after)
    match token with
    | .char c =>
      if isOpener c then keep (splitClosed unclosed next (closerOf c :: owed) rest)
      else if isCloser c then
        match owed with
        | [] => .error (.unbalancedBrackets c offset)
        | expected :: outer =>
          if expected = c then
            if outer.isEmpty then .ok ([], rest) else keep (splitClosed unclosed next outer rest)
          else .error (.unbalancedBrackets c offset)
      else keep (splitClosed unclosed next owed rest)
    | _ => keep (splitClosed unclosed next owed rest)

/-- The inside of the group that `opener` opens at byte `offset`, and the tokens after its closer. -/
def splitGroup (opener : Char) (offset : Nat) (rest : List Token) :
    Except PatchError (List Token × List Token) :=
  splitClosed (.unbalancedBrackets opener offset) (offset + 1) [closerOf opener] rest

theorem splitClosed_length_lt {unclosed : PatchError} {offset : Nat} {owed : List Char}
    {tokens inside after : List Token}
    (split : splitClosed unclosed offset owed tokens = .ok (inside, after)) :
    inside.length + after.length < tokens.length := by
  induction tokens generalizing offset owed inside with
  | nil => simp [splitClosed] at split
  | cons token rest ih =>
    have kept : ∀ {offset : Nat} {owed : List Char},
        (splitClosed unclosed offset owed rest).map (fun (inside, after) => (token :: inside, after)) =
          .ok (inside, after) → inside.length + after.length < (token :: rest).length := by
      intro offset owed h
      match found : splitClosed unclosed offset owed rest with
      | .error _ => simp [found, Except.map] at h
      | .ok (part, tail) =>
        simp only [found, Except.map, Except.ok.injEq, Prod.mk.injEq] at h
        obtain ⟨rfl, rfl⟩ := h
        have := ih found
        simp only [List.length_cons]
        omega
    rw [splitClosed.eq_def] at split
    dsimp only at split
    split at split
    · split at split
      · exact kept split
      · split at split
        · split at split
          · simp at split
          · split at split
            · split at split
              · simp only [Except.ok.injEq, Prod.mk.injEq] at split
                obtain ⟨rfl, rfl⟩ := split
                simp
              · exact kept split
            · simp at split
        · exact kept split
    · exact kept split

/-- What follows a group is shorter than what follows its opener. -/
theorem splitGroup_after_length_lt {opener : Char} {offset : Nat} {rest inside after : List Token}
    (split : splitGroup opener offset rest = .ok (inside, after)) : after.length < rest.length := by
  have := splitClosed_length_lt split
  omega

end Text

end FrameGraph
