import OrderFlow.CommandLine.Command

/-! Arguments as they are given, read into a command. They are judged from left to right, so that
a plea for help counts only where everything before it was right. -/
namespace OrderFlow.CommandLine

inductive Request where
  | help
  | version
  | run (locations : Locations) (command : Command)
  deriving DecidableEq, Repr

/-- Why reading ends early: help or the version is asked for, or the arguments are refused. -/
inductive Halt where
  | help
  | version
  | misuse (m : Misuse)
  deriving DecidableEq, Repr

/-- What a single argument looks like. -/
inductive Shape where
  | word (text : String)
  | dashes
  | long (name : String) (value : Option String)
  | short (letter : Char) (rest : List Char)
  deriving DecidableEq, Repr

/-- A name up to an equals sign, and what follows that. -/
def Shape.ofLong (cs : List Char) : Shape :=
  let name := String.ofList (cs.takeWhile (· != '='))
  match cs.dropWhile (· != '=') with
  | [] => .long name none
  | _ :: value => .long name (some (String.ofList value))

/-- A single dash is a word. -/
def Shape.of (a : String) : Shape :=
  match a.toList with
  | ['-', '-'] => .dashes
  | '-' :: '-' :: r => .ofLong r
  | '-' :: c :: r => .short c r
  | _ => .word a

/-- The option that was named last, as long as its value is not read. -/
inductive Waiting where
  | nothing
  | forValue (f : Flag)
  | withValue (f : Flag) (text : String)
  deriving DecidableEq, Repr

/-- What the arguments so far came to. -/
structure Progress where
  options : Options
  waiting : Waiting
  /-- After two dashes every argument is a word. -/
  wordsOnly : Bool
  symbol : Option String
  deriving DecidableEq, Repr

namespace Progress

def start : Progress := ⟨.none, .nothing, false, none⟩

/-- Reads the value that waits. -/
def settle (p : Progress) : Except Halt Progress :=
  match p.waiting with
  | .nothing => .ok p
  | .forValue f => .error (.misuse (.missingValue f))
  | .withValue f s =>
    match p.options.give f s with
    | .ok o => .ok { p with options := o, waiting := .nothing }
    | .error m => .error (.misuse m)

/-- An option, with the value if it was attached. -/
def option (p : Progress) (f : Flag) : Option String → Except Halt Progress
  | none => do return { ← p.settle with waiting := .forValue f }
  | some s => do settle { ← p.settle with waiting := .withValue f s }

/-- An end of reading that everything so far allows. -/
def halt (p : Progress) (h : Halt) : Except Halt Progress := do
  let _ ← p.settle
  throw h

/-- An option by its name. The version is asked for before a command only. -/
def long (p : Progress) (verb : Option Verb) (name : String) (value : Option String) :
    Except Halt Progress :=
  let flags := verb.elim Flag.general Verb.flags
  match flags.find? (·.name == name) with
  | some f => p.option f value
  | none =>
    if name = "help" ∨ name = "version" ∧ verb = none then
      match value with
      | some _ => throw (.misuse (.unexpectedValue ("--" ++ name)))
      | none => p.halt (if name = "help" then .help else .version)
    else throw (.misuse (.unknownOption ("--" ++ name)))

/-- The value attached to a letter, with or without an equals sign. -/
def attached : List Char → Option String
  | [] => none
  | '=' :: r => some (String.ofList r)
  | r => some (String.ofList r)

/-- An option by its letter. -/
def short (p : Progress) (verb : Option Verb) (letter : Char) (rest : List Char) :
    Except Halt Progress :=
  let flags := verb.elim Flag.general Verb.flags
  match flags.find? (·.letter? == some letter) with
  | some f => p.option f (attached rest)
  | none =>
    if letter = 'h' then p.halt .help
    else if letter = 'V' ∧ verb = none then p.halt .version
    else throw (.misuse (.unknownOption (String.ofList ['-', letter])))

/-- A word that is not the value of an option. One symbol follows a command. -/
def word (p : Progress) (verb : Option Verb) (s : String) : Except Halt Progress := do
  let p ← p.settle
  match verb, p.symbol with
  | none, _ => throw (.misuse (.unknownCommand s))
  | some _, none => return { p with symbol := some s }
  | some _, some _ => throw (.misuse (.unexpectedArgument s))

/-- The next argument, before a command or after one. -/
def step (verb : Option Verb) (p : Progress) (a : String) : Except Halt Progress :=
  if p.wordsOnly then p.word verb a
  else
    match Shape.of a, p.waiting with
    | .dashes, _ => .ok { p with wordsOnly := true }
    | .long name value, _ => p.long verb name value
    | .short letter rest, _ => p.short verb letter rest
    | .word s, .forValue f => .ok { p with waiting := .withValue f s }
    | .word s, _ => p.word verb s

/-- May the next argument name a command? -/
def expectsCommand (p : Progress) : Bool :=
  match p.waiting with
  | .forValue _ => false
  | _ => !p.wordsOnly

end Progress

/-- Help on a command, or on help itself. -/
def helpOn (words : List String) : Halt :=
  match words with
  | [] => .help
  | w :: rest =>
    if w ≠ "help" ∧ Verb.ofName? w = none then .misuse (.unknownCommand w)
    else
      match rest with
      | [] => .help
      | next :: _ => .misuse (.unknownCommand next)

/-- The command with the options after it, given those before it. -/
def readAfter (before : Progress) (verb : Verb) (args : List String) : Except Halt Request := do
  let after ← (← args.foldlM (Progress.step (some verb)) .start).settle
  match after.symbol with
  | none => throw (.misuse .missingSymbol)
  | some symbol =>
    let before ← before.settle
    return .run (.merge before.options after.options) (verb.command symbol after.options)

/-- The arguments from a point before the command on. -/
def readFrom (p : Progress) : List String → Except Halt Request
  | [] => do
    let _ ← p.settle
    throw (.misuse .missingCommand)
  | a :: rest =>
    if p.expectsCommand && a == "help" then throw (helpOn rest)
    else
      match if p.expectsCommand then Verb.ofName? a else none with
      | some verb => readAfter p verb rest
      | none => do readFrom (← p.step none a) rest

/-- What the arguments ask for. -/
def request (args : List String) : Except Misuse Request :=
  match readFrom .start args with
  | .ok r => .ok r
  | .error .help => .ok .help
  | .error .version => .ok .version
  | .error (.misuse m) => .error m

end OrderFlow.CommandLine
