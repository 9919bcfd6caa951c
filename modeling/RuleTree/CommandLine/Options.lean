import RuleTree.Text.Decimal

/-! Command line arguments: one file, switches in any order around it, and two settings with a
value. Arguments are taken from the left, and the first that is out of place decides. -/
namespace RuleTree.CommandLine

inductive Flag where
  | printTokens
  | json
  | quiet
  /-- Mark the place of an error without color. -/
  | noColor
  | debug
  deriving DecidableEq

inductive Setting where
  /-- A JSON file with the tokens of the source. -/
  | tokens
  /-- Most blocks that may be nested. -/
  | maxDepth
  deriving DecidableEq

inductive Switch where
  | flag (f : Flag)
  | setting (s : Setting)
  | version
  | help
  deriving DecidableEq

namespace Switch

def ofName? : String → Option Switch
  | "tokens" => some (.setting .tokens)
  | "max-depth" => some (.setting .maxDepth)
  | "print-tokens" => some (.flag .printTokens)
  | "json" => some (.flag .json)
  | "quiet" => some (.flag .quiet)
  | "no-color" => some (.flag .noColor)
  | "debug" => some (.flag .debug)
  | "version" => some .version
  | "help" => some .help
  | _ => none

def ofLetter? : Char → Option Switch
  | 't' => some (.setting .tokens)
  | 'q' => some (.flag .quiet)
  | 'd' => some (.flag .debug)
  | 'V' => some .version
  | 'h' => some .help
  | _ => none

end Switch

/-- Why no file is to be parsed. -/
inductive Stop where
  | version
  | help
  | misuse
  deriving DecidableEq

/-- What the arguments have set so far. -/
structure Draft where
  file : Option String := none
  tokens : Option String := none
  maxDepth : Option Nat := none
  flags : Flag → Bool := fun _ => false

structure Options where
  file : String
  tokens : Option String
  maxDepth : Option Nat
  flags : Flag → Bool

/-- A natural number of 64 bits, in decimal digits that a plus sign may precede. -/
def count? (s : String) : Option Nat :=
  match s.toList with
  | '+' :: cs => Text.word? cs
  | cs => Text.word? cs

namespace Draft

/-- Takes the file, of which there is one. -/
def addFile (d : Draft) (name : String) : Except Stop Draft :=
  if d.file.isSome then .error .misuse else .ok { d with file := some name }

/-- Sets a flag, which may be given once. -/
def raise (d : Draft) (f : Flag) : Except Stop Draft :=
  if d.flags f then .error .misuse
  else .ok { d with flags := fun g => decide (g = f) || d.flags g }

/-- Gives a setting its value, which may be done once. -/
def set (d : Draft) (s : Setting) (value : String) : Except Stop Draft :=
  match s with
  | .tokens => if d.tokens.isSome then .error .misuse else .ok { d with tokens := some value }
  | .maxDepth =>
    if d.maxDepth.isSome then .error .misuse
    else match count? value with
      | some n => .ok { d with maxDepth := some n }
      | none => .error .misuse

def options (d : Draft) : Except Stop Options :=
  match d.file with
  | some file => .ok ⟨file, d.tokens, d.maxDepth, d.flags⟩
  | none => .error .misuse

end Draft

inductive Argument where
  /-- What a file or value looks like; a lone hyphen does too. -/
  | plain
  /-- Two hyphens, a name, and perhaps a value after an equals sign. -/
  | named (name : String) (value : Option String)
  | letters (cs : List Char)

def Argument.ofString (s : String) : Argument :=
  match s.toList with
  | '-' :: '-' :: cs =>
    let value := match cs.dropWhile (· != '=') with
      | [] => none
      | _ :: value => some (String.ofList value)
    .named (String.ofList (cs.takeWhile (· != '='))) value
  | '-' :: c :: cs => .letters (c :: cs)
  | _ => .plain

/-- What an argument leaves: the draft, and the setting whose value is the next argument. -/
abbrev Taken := Draft × Option Setting

/-- Takes a switch given by name. Flags have no value. -/
def takeNamed (d : Draft) (name : String) (value : Option String) : Except Stop Taken :=
  match Switch.ofName? name, value with
  | some (.setting s), some v => (d.set s v).map fun d => (d, none)
  | some (.setting s), none => .ok (d, some s)
  | some (.flag f), none => (d.raise f).map fun d => (d, none)
  | some .version, none => .error .version
  | some .help, none => .error .help
  | _, _ => .error .misuse

/-- Takes switches given by letters. What follows the letter of a setting is its value, without the
equals sign that may stand between them. -/
def takeLetters (d : Draft) : List Char → Except Stop Taken
  | [] => .ok (d, none)
  | c :: cs =>
    match Switch.ofLetter? c with
    | some (.flag f) => do takeLetters (← d.raise f) cs
    | some (.setting s) =>
      match cs with
      | [] => .ok (d, some s)
      | '=' :: value => (d.set s (String.ofList value)).map fun d => (d, none)
      | value => (d.set s (String.ofList value)).map fun d => (d, none)
    | some .version => .error .version
    | some .help => .error .help
    | none => .error .misuse

def takeArgument (d : Draft) (s : String) : Except Stop Taken :=
  match Argument.ofString s with
  | .plain => (d.addFile s).map fun d => (d, none)
  | .named name value => takeNamed d name value
  | .letters cs => takeLetters d cs

/-- Whether an argument can be the value of the setting in front of it. -/
def Argument.isPlain : Argument → Bool
  | .plain => true
  | _ => false

/-- Takes all arguments. After a lone pair of hyphens each is a file. -/
def takeAll (d : Draft) : List String → Except Stop Draft
  | [] => .ok d
  | s :: rest =>
    if s = "--" then rest.foldlM Draft.addFile d
    else do
      match ← takeArgument d s with
      | (d, none) => takeAll d rest
      | (d, some setting) =>
        match rest with
        | [] => throw .misuse
        | value :: rest =>
          if (Argument.ofString value).isPlain then takeAll (← d.set setting value) rest
          else throw .misuse

def Options.ofArguments (args : List String) : Except Stop Options := do
  (← takeAll {} args).options

end RuleTree.CommandLine
