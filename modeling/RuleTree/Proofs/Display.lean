import Mathlib
import RuleTree.CommandLine.Directory
import RuleTree.Proofs.Arguments

/-! What display flags change. A command reads the same tokens whatever its display flags are, and
makes the same parse of them, if it makes one. The flags only decide how much is shown of that parse
and of its end. Commands are run at times of their own, which the lines of a log may show. -/
namespace RuleTree

/-- The marked character of an excerpt between its marks. -/
def Excerpt.setOff (x : Excerpt) (h : Highlight) : String := h.opening ++ x.marked ++ h.closing

/-- The two texts tell of the error in the same way, but for the marks of its character: the first
marks it by color, the second by arrows. -/
def ParseError.Recolored (e : ParseError) (s s' : String) : Prop :=
  ∃ front back, s = front ++ e.excerpt.setOff .ansi ++ back ∧
    s' = front ++ e.excerpt.setOff .plain ++ back

theorem Excerpt.exists_render (x : Excerpt) :
    ∃ front back, ∀ h, x.render h = front ++ x.setOff h ++ back := by
  refine ⟨(if x.cutStart then "...\n" else "") ++ x.before,
    x.after ++ (if x.cutEnd then "..." else ""), fun h => ?_⟩
  simp only [render, setOff, String.append_assoc]

/-- What stands around the marked character in the text of an error does not depend on the marks. -/
theorem ParseError.exists_render (e : ParseError) :
    ∃ front back, ∀ h, e.render h = front ++ e.excerpt.setOff h ++ back := by
  obtain ⟨front, back, hexcerpt⟩ := e.excerpt.exists_render
  refine ⟨"Parse error, " ++ e.cause.message ++ "\nAt " ++ toString e.index ++ "\n\"" ++ front,
    back ++ "\"", fun h => ?_⟩
  unfold render
  simp only [hexcerpt, String.append_assoc]

namespace CommandLine

/-- The flags that bear on what is shown of a parse. -/
def Flag.display : List Flag := [.quiet, .json, .noColor, .debug]

namespace Options

/-- Options that ask for the same, but perhaps for some of the flags. -/
structure AgreeBut (fs : List Flag) (o o' : Options) : Prop where
  file : o'.file = o.file
  tokens : o'.tokens = o.tokens
  maxDepth : o'.maxDepth = o.maxDepth
  flags : ∀ f ∉ fs, o'.flags f = o.flags f

variable {Time : Type}

/-- How far the options lead: to an outcome before any parse, or to a parse. -/
def reach (o : Options) (s : Surroundings Time) : Except Outcome (Run (List Node)) :=
  match s.readFile o.file with
  | .error message => .error (s.failure message)
  | .ok text =>
    match o.readTokens s ⟨some o.file, text⟩ with
    | .error outcome => .error outcome
    | .ok ts =>
      if o.flags .printTokens then .error (.success (String.join (ts.map tokenLine)))
      else .ok (parse o.config ts)

/-- The log of the parse, if there is one. -/
def records (o : Options) (s : Surroundings Time) : List Record :=
  match o.reach s with
  | .error _ => []
  | .ok run => run.log

/-- The error of the parse, if there is a parse and it fails. -/
def failure? (o : Options) (s : Surroundings Time) : Option ParseError :=
  match o.reach s with
  | .error _ => none
  | .ok run =>
    match run.result with
    | .ok _ => none
    | .error e => some e

/-- The records that are shown of a log. -/
def shown (o : Options) (log : List Record) : List Record := if o.flags .debug then log else []

/-- Two outputs of a command, written by two clocks: the lines of one log, if it is shown at all,
and behind them the same text. -/
def Retimed (o : Options) (s : Surroundings Time) (clock clock' : Nat → Time) (out out' : String) :
    Prop :=
  ∃ log rest, (o.flags .debug = false → log = []) ∧
    out = String.join (log.mapIdx fun i r => s.logLine (clock i) r) ++ rest ∧
    out' = String.join (log.mapIdx fun i r => s.logLine (clock' i) r) ++ rest

variable {o o' : Options} {s : Surroundings Time} {clock clock' : Nat → Time}
  {run : Run (List Node)} {fs gs : List Flag} {out out' : String}

theorem AgreeBut.mono (h : AgreeBut fs o o') (hsub : fs ⊆ gs) : AgreeBut gs o o' where
  file := h.file
  tokens := h.tokens
  maxDepth := h.maxDepth
  flags f hf := h.flags f fun hmem => hf (hsub hmem)

theorem AgreeBut.refl (fs : List Flag) (o : Options) : AgreeBut fs o o :=
  ⟨rfl, rfl, rfl, fun _ _ => rfl⟩

theorem AgreeBut.withFlag (h : AgreeBut fs o o') {f : Flag} (hf : f ∈ fs) :
    AgreeBut fs o (o'.withFlag f) where
  file := h.file
  tokens := h.tokens
  maxDepth := h.maxDepth
  flags g hg := by
    have hne : g ≠ f := fun heq => hg (heq ▸ hf)
    simp [Options.withFlag, hne, h.flags g hg]

/-- Without a log, or by one clock, outputs are the same. -/
theorem Retimed.eq (h : o.Retimed s clock clock' out out')
    (hsame : o.flags .debug = false ∨ clock' = clock) : out' = out := by
  obtain ⟨log, rest, hlog, rfl, rfl⟩ := h
  rcases hsame with hoff | rfl
  · rw [hlog hoff]
    rfl
  · rfl

theorem perform_eq_reach (o : Options) (s : Surroundings Time) (clock : Nat → Time) :
    o.perform s clock = match o.reach s with
      | .error outcome => outcome
      | .ok run => o.report s clock run := by
  unfold perform reach
  cases s.readFile o.file with
  | error message => rfl
  | ok text =>
    dsimp only
    cases o.readTokens s ⟨some o.file, text⟩ with
    | error outcome => rfl
    | ok ts =>
      dsimp only
      split <;> rfl

/-- What a command reads, and the parse that it makes, do not depend on its display flags. -/
theorem AgreeBut.reach_eq (h : AgreeBut Flag.display o o') (s : Surroundings Time) :
    o'.reach s = o.reach s := by
  have hprint : o'.flags .printTokens = o.flags .printTokens := h.flags _ (by decide)
  have hread : ∀ source, o'.readTokens s source = o.readTokens s source := by
    intro source
    simp only [readTokens, h.tokens]
  have hconfig : o'.config = o.config := by simp only [config, h.file, h.maxDepth]
  simp only [reach, h.file, hread, hprint, hconfig]

theorem AgreeBut.showTree_eq (h : AgreeBut [.noColor, .debug] o o') (nodes : List Node) :
    o'.showTree nodes = o.showTree nodes := by
  simp only [showTree, h.flags .quiet (by decide), h.flags .json (by decide)]

theorem showLog_eq (o : Options) (s : Surroundings Time) (clock : Nat → Time)
    (log : List Record) : o.showLog s clock log =
      String.join ((o.shown log).mapIdx fun i r => s.logLine (clock i) r) := by
  unfold showLog shown
  split <;> rfl

theorem AgreeBut.shown_eq (h : AgreeBut [.noColor] o o') (log : List Record) :
    o'.shown log = o.shown log := by
  simp only [shown, h.flags .debug (by decide)]

section
variable (run)

theorem report_code_eq (o o' : Options) :
    (o'.report s clock' run).code = (o.report s clock run).code := by
  unfold report
  cases run.result <;> rfl

theorem AgreeBut.report_stderr_eq (h : AgreeBut [.quiet, .json, .debug] o o') :
    (o'.report s clock' run).stderr = (o.report s clock run).stderr := by
  have hhighlight : o'.highlight = o.highlight := by
    simp only [highlight, h.flags .noColor (by decide)]
  unfold report
  cases run.result with
  | ok nodes => rfl
  | error e => simp only [hhighlight, h.file]

/-- Behind the log, neither color nor the log itself changes what is shown. -/
theorem exists_report_stdout (o : Options) (s : Surroundings Time) :
    ∃ rest, ∀ {o'}, AgreeBut [.noColor, .debug] o o' → ∀ clock,
      (o'.report s clock run).stdout =
        String.join ((o'.shown run.log).mapIdx fun i r => s.logLine (clock i) r) ++ rest := by
  unfold report
  cases run.result with
  | ok nodes =>
    refine ⟨o.showTree nodes, fun h clock => ?_⟩
    simp only [Outcome.success, showLog_eq, h.showTree_eq nodes]
  | error e =>
    refine ⟨"", fun _ clock => ?_⟩
    simp only [showLog_eq, String.append_empty]

theorem AgreeBut.report_stdout_debug (h : AgreeBut [.debug] o o') (hoff : o.flags .debug = false)
    (hon : o'.flags .debug) : (o'.report s clock' run).stdout =
      String.join (run.log.mapIdx fun i r => s.logLine (clock' i) r) ++
        (o.report s clock run).stdout := by
  obtain ⟨rest, hrest⟩ := exists_report_stdout run o s
  rw [hrest (.refl _ o), hrest (h.mono (by decide))]
  simp only [shown, hoff, hon, if_true, Bool.false_eq_true, if_false]
  rw [List.mapIdx_nil, String.join_nil, String.empty_append]

theorem AgreeBut.report_retimed (h : AgreeBut [.noColor] o o') :
    o.Retimed s clock clock' (o.report s clock run).stdout (o'.report s clock' run).stdout := by
  obtain ⟨rest, hrest⟩ := exists_report_stdout run o s
  refine ⟨o.shown run.log, rest, fun hoff => ?_, hrest (.refl _ o) clock, ?_⟩
  · simp only [shown, hoff, Bool.false_eq_true, if_false]
  · rw [hrest (h.mono (by decide)), h.shown_eq]

theorem AgreeBut.report_recolored {e : ParseError} (h : AgreeBut [.noColor] o o')
    (hoff : o.flags .noColor = false) (hon : o'.flags .noColor) (he : run.result = .error e) :
    e.Recolored (o.report s clock run).stderr (o'.report s clock' run).stderr := by
  obtain ⟨front, back, hrender⟩ := e.exists_render
  refine ⟨front, back ++ "\n" ++ s.errorLine ("could not parse " ++ o.file), ?_, ?_⟩
  · simp [report, he, highlight, hoff, hrender, String.append_assoc]
  · simp [report, he, highlight, hon, hrender, h.file, String.append_assoc]

theorem report_stdout_of_failure (hoff : o.flags .debug = false)
    (hcode : (o.report s clock run).code = 1) : (o.report s clock run).stdout = "" := by
  unfold report at hcode ⊢
  cases hresult : run.result with
  | ok nodes =>
    rw [hresult] at hcode
    cases hcode
  | error e => simp [showLog, hoff]

end

/-- Two commands that differ in display flags only come to the same outcome before any parse, or
make the same parse and report it each in its own way. -/
theorem AgreeBut.perform_cases (h : AgreeBut Flag.display o o') (s : Surroundings Time)
    (clock clock' : Nat → Time) :
    (∃ outcome, o.reach s = .error outcome ∧ o.perform s clock = outcome ∧
      o'.perform s clock' = outcome) ∨
    ∃ run, o.reach s = .ok run ∧ o.perform s clock = o.report s clock run ∧
      o'.perform s clock' = o'.report s clock' run := by
  rw [perform_eq_reach o, perform_eq_reach o', h.reach_eq]
  cases o.reach s with
  | error outcome => exact .inl ⟨outcome, rfl, rfl, rfl⟩
  | ok run => exact .inr ⟨run, rfl, rfl, rfl⟩

/-- How the outcomes `r` and `r'` of two commands, with the options `o` and `o'`, bear on each other
when the options differ in display flags. Each of the commands is run by its own clock. -/
structure Displays (s : Surroundings Time) (clock clock' : Nat → Time) (o o' : Options)
    (r r' : Outcome) : Prop where
  code : AgreeBut Flag.display o o' → r'.code = r.code
  stderr : AgreeBut [.quiet, .json, .debug] o o' → r'.stderr = r.stderr
  /-- The log comes first, and then the same as without it. -/
  debug : AgreeBut [.debug] o o' → o.flags .debug = false → o'.flags .debug →
    r'.stdout = String.join ((o.records s).mapIdx fun i r => s.logLine (clock' i) r) ++ r.stdout
  /-- Color makes no difference to the first output, -/
  noColor : AgreeBut [.noColor] o o' → (o.flags .debug = false ∨ clock' = clock) →
    r'.stdout = r.stdout
  /-- but for the times in a log. -/
  retimed : AgreeBut [.noColor] o o' → o.Retimed s clock clock' r.stdout r'.stdout
  /-- Without an error to mark, it makes none to the second output either; -/
  uncolored : AgreeBut [.noColor] o o' → o.failure? s = none → r'.stderr = r.stderr
  /-- with one, the difference is in the marks. -/
  recolored : AgreeBut [.noColor] o o' → o.flags .noColor = false → o'.flags .noColor →
    ∀ e, o.failure? s = some e → e.Recolored r.stderr r'.stderr

theorem AgreeBut.perform_retimed (h : AgreeBut [.noColor] o o') (s : Surroundings Time)
    (clock clock' : Nat → Time) :
    o.Retimed s clock clock' (o.perform s clock).stdout (o'.perform s clock').stdout := by
  obtain ⟨outcome, -, hp, hp'⟩ | ⟨run, -, hp, hp'⟩ :=
    (h.mono (by decide)).perform_cases s clock clock'
  · rw [hp, hp']
    exact ⟨[], outcome.stdout, fun _ => rfl, String.empty_append.symm, String.empty_append.symm⟩
  · rw [hp, hp']
    exact h.report_retimed run

theorem perform_displays (s : Surroundings Time) (clock clock' : Nat → Time) (o o' : Options) :
    Displays s clock clock' o o' (o.perform s clock) (o'.perform s clock') where
  code h := by
    obtain ⟨outcome, -, hp, hp'⟩ | ⟨run, -, hp, hp'⟩ := h.perform_cases s clock clock'
    · rw [hp, hp']
    · rw [hp, hp', report_code_eq run o o']
  stderr h := by
    obtain ⟨outcome, -, hp, hp'⟩ | ⟨run, -, hp, hp'⟩ :=
      (h.mono (by decide)).perform_cases s clock clock'
    · rw [hp, hp']
    · rw [hp, hp', h.report_stderr_eq run]
  debug h hoff hon := by
    obtain ⟨outcome, hreach, hp, hp'⟩ | ⟨run, hreach, hp, hp'⟩ :=
      (h.mono (by decide)).perform_cases s clock clock'
    · rw [hp, hp', records, hreach]
      exact String.empty_append.symm
    · rw [hp, hp', records, hreach, h.report_stdout_debug run hoff hon]
  noColor h := (h.perform_retimed s clock clock').eq
  retimed h := h.perform_retimed s clock clock'
  uncolored h hnone := by
    obtain ⟨outcome, -, hp, hp'⟩ | ⟨run, hreach, hp, hp'⟩ :=
      (h.mono (by decide)).perform_cases s clock clock'
    · rw [hp, hp']
    · rw [failure?, hreach] at hnone
      rw [hp, hp', report, report]
      cases hresult : run.result with
      | ok nodes => rfl
      | error e => simp [hresult] at hnone
  recolored h hoff hon e he := by
    obtain ⟨outcome, hreach, -, -⟩ | ⟨run, hreach, hp, hp'⟩ :=
      (h.mono (by decide)).perform_cases s clock clock'
    · simp [failure?, hreach] at he
    · rw [hp, hp']
      apply h.report_recolored run hoff hon
      rw [failure?, hreach] at he
      cases hresult : run.result with
      | ok nodes => simp [hresult] at he
      | error e' => simpa [hresult] using he

theorem failure_of_readTokens {source : Source} {outcome : Outcome}
    (h : o.readTokens s source = .error outcome) : ∃ message, outcome = s.failure message := by
  unfold readTokens at h
  split at h
  next => cases h
  next =>
    split at h
    next =>
      cases h
      exact ⟨_, rfl⟩
    next =>
      split at h
      next => cases h
      next =>
        cases h
        exact ⟨_, rfl⟩

/-- A command that makes no parse writes to one output only. -/
theorem reach_error_cases {outcome : Outcome} (h : o.reach s = .error outcome) :
    (∃ message, outcome = s.failure message) ∨ ∃ stdout, outcome = .success stdout := by
  unfold reach at h
  split at h
  next =>
    cases h
    exact .inl ⟨_, rfl⟩
  next =>
    split at h
    next hread =>
      cases h
      exact .inl (failure_of_readTokens hread)
    next =>
      split at h
      next =>
        cases h
        exact .inr ⟨_, rfl⟩
      next => cases h

/-- Without the log, a command that fails writes nothing but its error. -/
theorem perform_stdout_of_failure (hoff : o.flags .debug = false)
    (hcode : (o.perform s clock).code = 1) : (o.perform s clock).stdout = "" := by
  rw [perform_eq_reach] at hcode ⊢
  cases hreach : o.reach s with
  | ok run =>
    rw [hreach] at hcode
    exact report_stdout_of_failure run hoff hcode
  | error outcome =>
    rw [hreach] at hcode
    obtain ⟨message, rfl⟩ | ⟨stdout, rfl⟩ := reach_error_cases hreach
    · rfl
    · cases hcode

theorem perform_code_of_failure {e : ParseError} (h : o.failure? s = some e) :
    (o.perform s clock).code = 1 := by
  rw [perform_eq_reach]
  unfold failure? at h
  cases hreach : o.reach s with
  | error outcome => simp [hreach] at h
  | ok run =>
    cases hresult : run.result with
    | ok nodes => simp [hreach, hresult] at h
    | error e' =>
      simp only [report, hresult]
      rfl

/-- A command whose files can be read, and its token file too if it has one, comes to the tokens. -/
theorem exists_readTokens {text : String}
    (h : ∀ name ∈ o.tokens, ∃ json ts, s.readFile name = .ok json ∧
      (Source.mk (some o.file) text).tokensOfJson json = .ok ts) :
    ∃ ts, o.readTokens s ⟨some o.file, text⟩ = .ok ts := by
  unfold readTokens
  cases htokens : o.tokens with
  | none => exact ⟨_, rfl⟩
  | some name =>
    obtain ⟨json, ts, hfile, hjson⟩ := h name htokens
    exact ⟨ts, by simp only [hfile, hjson]⟩

/-- Listing the tokens takes no parse. -/
theorem perform_printTokens {text : String} {ts : List Token} (hprint : o.flags .printTokens)
    (hfile : s.readFile o.file = .ok text) (hread : o.readTokens s ⟨some o.file, text⟩ = .ok ts) :
    o.perform s clock = ⟨0, String.join (ts.map tokenLine), ""⟩ := by
  unfold perform
  simp only [hfile, hread, hprint, if_true]
  rfl

end Options

/-- Display flags do not change what a command comes to, whoever reads its arguments and its files,
words its messages and writes its log. Let `args'` stand for `args` with any flags raised or
dropped; a flag that the arguments do not raise can be raised in front of them. Apart from that, a
command that fails writes nothing to its first output, unless it shows the log; and listing the
tokens succeeds when the files can be read, whether or not the tokens have a parse. -/
theorem answer_displays {Time : Type} {s : Surroundings Time} {args args' : List String}
    {o o' : Options} (clock clock' : Nat → Time) (hargs : s.readArguments args = .ok o)
    (hargs' : s.readArguments args' = .ok o') :
    Options.Displays s clock clock' o o' (s.answer clock args) (s.answer clock' args') ∧
      (s.TakesArguments → ∀ f, o.flags f = false →
        s.readArguments (f.argument :: args) = .ok (o.withFlag f) ∧
          Options.Displays s clock clock' o (o.withFlag f) (s.answer clock args)
            (s.answer clock' (f.argument :: args))) ∧
      (o.flags .debug = false → (s.answer clock args).code = 1 →
        (s.answer clock args).stdout = "") ∧
      ∀ text, o.flags .printTokens → s.readFile o.file = .ok text →
        (∀ name ∈ o.tokens, ∃ json ts, s.readFile name = .ok json ∧
          (Source.mk (some o.file) text).tokensOfJson json = .ok ts) →
        ∃ ts, o.readTokens s ⟨some o.file, text⟩ = .ok ts ∧
          s.answer clock args = ⟨0, String.join (ts.map tokenLine), ""⟩ := by
  rw [Surroundings.answer_of_readArguments hargs, Surroundings.answer_of_readArguments hargs']
  refine ⟨Options.perform_displays s clock clock' o o', ?_, Options.perform_stdout_of_failure, ?_⟩
  · intro htakes f hf
    have hraised := htakes.flag args o f hargs hf
    rw [Surroundings.answer_of_readArguments hraised]
    exact ⟨hraised, Options.perform_displays s clock clock' o (o.withFlag f)⟩
  · intro text hprint hfile htokens
    obtain ⟨ts, hread⟩ := Options.exists_readTokens htokens
    exact ⟨ts, hread, Options.perform_printTokens hprint hfile hread⟩

theorem answer_displays_failing :
    let directory := Directory.ofList [("a.css", "a;@")]
    let s := Surroundings.plain directory.read?
    let clock : Nat → String := fun _ => "2024-05-01T12:00:00.000Z "
    let later : Nat → String := fun i => "2024-05-01T12:00:0" ++ toString i ++ ".250Z "
    let o : Options := ⟨"./a.css", none, none, fun _ => false⟩
    s.readArguments ["./a.css"] = .ok o ∧ s.TakesArguments ∧
      (s.answer clock ["./a.css"]).code = 1 ∧ (s.answer clock ["./a.css"]).stdout = "" ∧
      (s.answer later ["-dq", "--json", "./a.css", "--no-color"]).code = 1 ∧
      (s.answer later ["-dq", "./a.css"]).stderr = (s.answer clock ["./a.css"]).stderr ∧
      (s.answer later ["--debug", "./a.css"]).stdout =
        String.join ((o.records s).mapIdx fun i r => s.logLine (later i) r) ∧
      (∃ e, o.failure? s = some e ∧ e.excerpt.marked = "@" ∧
        e.Recolored (s.answer clock ["./a.css"]).stderr
          (s.answer later ["--no-color", "./a.css"]).stderr) ∧
      (s.answer later ["--print-tokens", "./a.css"]).code = 0 := by
  intro directory s clock later o
  have htakes : s.TakesArguments := Surroundings.plain_takesArguments _
  have hargs : s.readArguments ["./a.css"] = .ok o := by cbv
  have hall : s.readArguments ["-dq", "--json", "./a.css", "--no-color"] =
      .ok ((((o.withFlag .debug).withFlag .quiet).withFlag .json).withFlag .noColor) := by cbv
  have hquiet : s.readArguments ["-dq", "./a.css"] =
      .ok ((o.withFlag .debug).withFlag .quiet) := by cbv
  have herror : o.failure? s =
      some (Token.fault ⟨.atSign, "@", 2, ⟨some "./a.css", "a;@"⟩⟩ .unknownToken) := by cbv
  have hcode : (s.answer clock ["./a.css"]).code = 1 := by
    rw [Surroundings.answer_of_readArguments hargs, Options.perform_code_of_failure herror]
  have hsame (fs : List Flag) : o.AgreeBut fs o := .refl fs o
  obtain ⟨hdisplay, hraised, hempty, -⟩ := answer_displays clock later hargs hall
  obtain ⟨-, hdebug⟩ := hraised htakes .debug rfl
  obtain ⟨-, hnoColor⟩ := hraised htakes .noColor rfl
  obtain ⟨hprint, -⟩ := hraised htakes .printTokens rfl
  have hstdout := hempty rfl hcode
  refine ⟨hargs, htakes, hcode, hstdout, ?_, ?_, ?_, ⟨_, herror, by cbv, ?_⟩, ?_⟩
  · have hagree := (((hsame Flag.display).withFlag (f := .debug) (by decide)).withFlag (f := .quiet)
      (by decide)).withFlag (f := .json) (by decide)
    exact (hdisplay.code (hagree.withFlag (by decide))).trans hcode
  · obtain ⟨hdisplay, -⟩ := answer_displays clock later hargs hquiet
    exact hdisplay.stderr (((hsame _).withFlag (by decide)).withFlag (by decide))
  · have hlog := hdebug.debug ((hsame _).withFlag (by decide)) rfl rfl
    rw [hstdout, String.append_empty] at hlog
    exact hlog
  · exact hnoColor.recolored ((hsame _).withFlag (by decide)) rfl rfl _ herror
  · obtain ⟨-, -, -, hlisted⟩ := answer_displays later later hprint hprint
    have htokens : (o.withFlag .printTokens).tokens = none := rfl
    have hfile : s.readFile (o.withFlag .printTokens).file = .ok "a;@" := by cbv
    obtain ⟨ts, -, hanswer⟩ := hlisted "a;@" rfl hfile (by simp [htokens])
    exact congrArg Outcome.code hanswer

end CommandLine
end RuleTree
