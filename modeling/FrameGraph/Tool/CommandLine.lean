import FrameGraph.Text.Blank

/-! # The command line

A command, options of the command and options that may stand before or after it. Arguments are read
from left to right and the first thing that decides the outcome wins: an error, or the wish for help
or for the version. An option that may stand at both places is taken from behind the command if it
stands there.
-/

namespace FrameGraph

/-- What the program is to do. -/
inductive Task where
  | run (demo : Option String)
  | compile (demo : Option String)
  | headless (demo : Option String) (frames : Nat)
  | demos
deriving DecidableEq, Repr

/-- The options that may stand at both places. -/
structure SharedOptions where
  /-- Path of the settings file. -/
  config : Option String := none
  /-- The log filter. -/
  log : Option String := none
  noValidate : Bool := false
deriving DecidableEq, Repr

structure CommandLine where
  task : Task
  options : SharedOptions
deriving DecidableEq, Repr

/-- Why there is nothing to do. -/
inductive Refusal where
  | displayHelp
  | displayVersion
  /-- The arguments make no sense. -/
  | usage
deriving DecidableEq, Repr

namespace CommandLine

inductive TaskName where
  | run | compile | headless | demos
deriving DecidableEq, Repr

def TaskName.word : TaskName → String
  | .run => "run"
  | .compile => "compile"
  | .headless => "headless"
  | .demos => "demos"

def TaskName.all : List TaskName := [.run, .compile, .headless, .demos]

def TaskName.ofWord? (word : String) : Option TaskName := all.find? (·.word == word)

/-- The options of one place, each given once at most. -/
structure Options where
  shared : SharedOptions := {}
  demo : Option String := none
  frames : Option Nat := none
deriving DecidableEq, Repr

/-- Options with a value that stand at a place: before the command, or behind this one. -/
def valued : Option TaskName → List String
  | none | some .demos => ["config", "log"]
  | some .headless => ["config", "log", "demo", "frames"]
  | some _ => ["config", "log", "demo"]

/-- A number of frames, a 32-bit word. -/
def frames? (text : String) : Option Nat :=
  match text.toList with
  | '-' :: digits => if !digits.isEmpty && digits.all (· == '0') then some 0 else none
  | other => Text.decimalBelow? UInt32.size other

/-- Put a value in an empty place. -/
def fill {α : Type} (old : Option α) (value : Option α) : Except Refusal (Option α) :=
  if old.isSome ∨ value.isNone then .error .usage else .ok value

/-- Take an option with its value. -/
def Options.set (options : Options) (name value : String) : Except Refusal Options :=
  match name with
  | "config" => do
    return { options with
      shared := { options.shared with config := ← fill options.shared.config (some value) } }
  | "log" => do
    return { options with
      shared := { options.shared with log := ← fill options.shared.log (some value) } }
  | "demo" => do return { options with demo := ← fill options.demo (some value) }
  | _ => do return { options with frames := ← fill options.frames (frames? value) }

def Options.setNoValidate (options : Options) : Except Refusal Options :=
  if options.shared.noValidate then .error .usage
  else .ok { options with shared := { options.shared with noValidate := true } }

/-- How an argument is meant. -/
inductive Item where
  | word (text : String)
  | separator
  /-- A long option, with the text after an equals sign. -/
  | long (name : String) (value : Option String)
  /-- Short options in one argument. -/
  | short (letters : List Char)

def Item.ofText (text : String) : Item :=
  match text.toList with
  | ['-', '-'] => .separator
  | '-' :: '-' :: rest =>
    let name := rest.takeWhile (· != '=')
    .long (String.ofList name) ((Text.afterFirst? ['='] rest).map String.ofList)
  | '-' :: c :: rest => .short (c :: rest)
  | _ => .word text

/-- An argument that may be the value of the option in front of it. -/
def value? (text : String) : Option String :=
  match Item.ofText text with
  | .word text => some text
  | _ => none

/-- Short options: the first letter decides. The version is told only in front of a command. -/
def refusalOfShort (place : Option TaskName) : List Char → Refusal
  | 'h' :: _ => .displayHelp
  | 'V' :: _ => if place.isNone then .displayVersion else .usage
  | _ => .usage

/-- A long option without a value. -/
def Options.flag (options : Options) (place : Option TaskName) (name : String) :
    Except Refusal Options :=
  match name with
  | "no-validate" => options.setNoValidate
  | "help" => .error .displayHelp
  | "version" => .error (if place.isNone then .displayVersion else .usage)
  | _ => .error .usage

/-- The options at a place, and what follows the first word there. -/
def readOptions (place : Option TaskName) (options : Options) :
    List String → Except Refusal (Options × Option (String × List String))
  | [] => .ok (options, none)
  | argument :: rest =>
    match Item.ofText argument with
    | .word text => .ok (options, some (text, rest))
    | .separator => if rest.isEmpty then .ok (options, none) else .error .usage
    | .short letters => .error (refusalOfShort place letters)
    | .long name (some value) =>
      if name ∈ valued place then do readOptions place (← options.set name value) rest
      else .error .usage
    | .long name none =>
      if name ∈ valued place then
        match rest with
        | [] => .error .usage
        | next :: rest =>
          match value? next with
          | some value => do readOptions place (← options.set name value) rest
          | none => .error .usage
      else do readOptions place (← options.flag place name) rest

/-- The help command may name one other command. -/
def helpRefusal : List String → Refusal
  | [] => .displayHelp
  | [word] => if word = "help" ∨ (TaskName.ofWord? word).isSome then .displayHelp else .usage
  | _ => .usage

/-- The task of a command with its options; three frames are run unless a number is given. -/
def TaskName.task (name : TaskName) (options : Options) : Task :=
  match name with
  | .run => .run options.demo
  | .compile => .compile options.demo
  | .headless => .headless options.demo (options.frames.getD 3)
  | .demos => .demos

/-- Options from behind the command take the place of those in front of it. -/
def SharedOptions.merge (outer inner : SharedOptions) : SharedOptions where
  config := inner.config <|> outer.config
  log := inner.log <|> outer.log
  noValidate := inner.noValidate || outer.noValidate

/-- Read the arguments after the program's name. -/
def ofArguments (arguments : List String) : Except Refusal CommandLine := do
  let (outer, command) ← readOptions none {} arguments
  let (word, rest) ← match command with
    | some command => .ok command
    | none => .error .usage
  if word = "help" then throw (helpRefusal rest)
  let name ← match TaskName.ofWord? word with
    | some name => .ok name
    | none => .error .usage
  let (inner, extra) ← readOptions (some name) {} rest
  if extra.isSome then throw .usage
  return { task := name.task inner, options := SharedOptions.merge outer.shared inner.shared }

end CommandLine

/-- The demo that a task names. -/
def Task.demo? : Task → Option String
  | .run demo | .compile demo | .headless demo _ => demo
  | .demos => none

/-- The number of frames that a task renders. -/
def Task.frames? : Task → Option Nat
  | .headless _ frames => frames
  | _ => none

end FrameGraph
