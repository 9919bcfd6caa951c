import RuleTree.CommandLine.Options
import RuleTree.Node.Json
import RuleTree.Outline
import RuleTree.Parser
import RuleTree.Token.Lexer
import RuleTree.Token.Reader

/-! What a command line comes to: what is written to both outputs, and the exit code. Arguments are
taken apart, files are read, and messages and log lines are worded by others; of them nothing is
taken for granted. -/
namespace RuleTree.CommandLine

structure Outcome where
  code : Nat
  stdout : String
  stderr : String
  deriving DecidableEq

namespace Outcome

/-- The code when the arguments make no sense. -/
def misuseCode : Nat := 2

/-- The code when a file cannot be read or parsed. -/
def failureCode : Nat := 1

/-- The program has done what it was asked for. -/
def success (stdout : String) : Outcome := ⟨0, stdout, ""⟩

end Outcome

/-- What the program leaves to others. -/
structure Surroundings (Time : Type) where
  /-- What the arguments ask for, or the outcome if they ask for no file to be read. -/
  readArguments : List String → Except Outcome Options
  /-- The text in a file, or what keeps it from being read. -/
  readFile : String → Except String String
  /-- What is wrong with a text that lists no tokens. -/
  complaint : String → String
  /-- A message that ends the program, with all that is shown along with it. -/
  wording : String → String
  /-- The line of a record in the log, by the time at which it is written. -/
  logLine : Time → Record → String

namespace Surroundings
variable {Time : Type}

def errorLine (s : Surroundings Time) (message : String) : String :=
  "Error: " ++ s.wording message ++ "\n"

/-- A file cannot be used. -/
def failure (s : Surroundings Time) (message : String) : Outcome :=
  ⟨Outcome.failureCode, "", s.errorLine message⟩

/-- The lines of a log whose records are written at the times that the clock shows. -/
def logText (s : Surroundings Time) (clock : Nat → Time) (log : List Record) : String :=
  String.join (log.mapIdx fun i r => s.logLine (clock i) r)

end Surroundings

def tokenLine (t : Token) : String :=
  t.kind.label ++ " " ++ Text.quoted t.text ++ " @" ++ toString t.index ++ "\n"

namespace Options
variable {Time : Type}

def files (o : Options) : List String := o.file :: o.tokens.toList

def config (o : Options) : Config :=
  ⟨some o.file, o.maxDepth.getD Config.standardDepth⟩

def highlight (o : Options) : Highlight := if o.flags .noColor then .plain else .ansi

/-- The tokens of the source: those of the token file if there is one, its own otherwise. -/
def readTokens (o : Options) (s : Surroundings Time) (source : Source) :
    Except Outcome (List Token) :=
  match o.tokens with
  | none => .ok source.tokens
  | some name =>
    match s.readFile name with
    | .error message => .error (s.failure message)
    | .ok json =>
      match source.tokensOfJson json with
      | .ok ts => .ok ts
      | .error _ => .error (s.failure (s.complaint json))

def showTree (o : Options) (nodes : List Node) : String :=
  if o.flags .quiet then ""
  else if o.flags .json then (Node.treeJson nodes).pretty ++ "\n"
  else Outline.render nodes

def showLog (o : Options) (s : Surroundings Time) (clock : Nat → Time) (log : List Record) :
    String :=
  if o.flags .debug then s.logText clock log else ""

/-- Shows how a parse ended. -/
def report (o : Options) (s : Surroundings Time) (clock : Nat → Time) (run : Run (List Node)) :
    Outcome :=
  match run.result with
  | .ok nodes => .success (o.showLog s clock run.log ++ o.showTree nodes)
  | .error e =>
    ⟨Outcome.failureCode, o.showLog s clock run.log,
      e.render o.highlight ++ "\n" ++ s.errorLine ("could not parse " ++ o.file)⟩

def perform (o : Options) (s : Surroundings Time) (clock : Nat → Time) : Outcome :=
  match s.readFile o.file with
  | .error message => s.failure message
  | .ok text =>
    match o.readTokens s ⟨some o.file, text⟩ with
    | .error outcome => outcome
    | .ok ts =>
      if o.flags .printTokens then .success (String.join (ts.map tokenLine))
      else o.report s clock (parse o.config ts)

end Options

namespace Surroundings
variable {Time : Type}

def answer (s : Surroundings Time) (clock : Nat → Time) (args : List String) : Outcome :=
  match s.readArguments args with
  | .ok o => o.perform s clock
  | .error outcome => outcome

theorem answer_of_readArguments {s : Surroundings Time} {args : List String} {o : Options}
    (h : s.readArguments args = .ok o) (clock : Nat → Time) :
    s.answer clock args = o.perform s clock := by
  rw [answer, h]

end Surroundings

/-- How the program ends when there is nothing to parse. Only its version is a text of its own. -/
def Stop.outcome : Stop → Outcome
  | .version => .success "Cssnest parser 0.1.0\n"
  | .help => .success ""
  | .misuse => ⟨Outcome.misuseCode, "", ""⟩

/-- The files there are, by name. -/
abbrev Files := String → Option String

/-- Surroundings of few words. Times are written in front of the lines of the log. -/
def Surroundings.plain (files : Files) : Surroundings String where
  readArguments args := (Options.ofArguments args).mapError Stop.outcome
  readFile name :=
    match files name with
    | some text => .ok text
    | none => .error ("could not read " ++ name)
  complaint _ := "no list of tokens"
  wording message := message
  logLine time r := time ++ r.level.label ++ " [" ++ r.speaker ++ "] " ++ r.message ++ "\n"

/-- What the program comes to by itself, with no times in its log. -/
def answer (args : List String) (files : Files) : Outcome :=
  (Surroundings.plain files).answer (fun _ => "") args

/-- The files that the arguments make the program read. -/
def filesNeeded (args : List String) : List String :=
  match Options.ofArguments args with
  | .ok o => o.files
  | .error _ => []

end RuleTree.CommandLine
