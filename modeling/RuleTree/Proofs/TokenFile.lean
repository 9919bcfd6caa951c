import Mathlib
import RuleTree.Proofs.Display
import RuleTree.Proofs.TokenList

/-! Command lines with and without a token file. Whoever writes the tokens of a text into a file and
names that file gets what the text alone would have given. -/
namespace RuleTree.CommandLine

variable {Time : Type} {s : Surroundings Time} {args : List String} {o : Options}
  {content name : String} {title : Option String}

/-- The tokens in a file that holds those of the text are the text's own. -/
theorem Options.readTokens_written (o : Options) (hlength : content.length ≤ Text.wordBound)
    (htokens : s.readFile name = .ok (Token.listJson (Source.tokens ⟨title, content⟩)).compact) :
    { o with tokens := some name }.readTokens s ⟨some o.file, content⟩ =
      .ok (Source.tokens ⟨some o.file, content⟩) := by
  have hread : (Source.mk (some o.file) content).tokensOfJson
      (Json.render .compact (Token.listJson (Source.tokens ⟨title, content⟩))) =
        .ok (Source.tokens ⟨some o.file, content⟩) :=
    Source.tokensOfJson_tokens Json.Layout.compact_blank rfl hlength
  simp only [readTokens, htokens]
  rw [Json.compact, hread]

/-- Apart from the tokens that it reads, a run does not depend on the token file. -/
theorem Options.perform_written (clock : Nat → Time) (hown : o.tokens = none)
    (hfile : s.readFile o.file = .ok content) (hlength : content.length ≤ Text.wordBound)
    (htokens : s.readFile name = .ok (Token.listJson (Source.tokens ⟨title, content⟩)).compact) :
    { o with tokens := some name }.perform s clock = o.perform s clock := by
  have hread : o.readTokens s ⟨some o.file, content⟩ =
      .ok (Source.tokens ⟨some o.file, content⟩) := by
    simp only [readTokens, hown]
  simp only [perform, hfile]
  rw [hread, readTokens_written o hlength htokens]
  rfl

/-- The two command lines, of which the first has the options `o`, come to the same outcome. By two
clocks the times in the log may differ, and nothing else. -/
structure Surroundings.AnswersAlike (s : Surroundings Time) (o : Options)
    (args args' : List String) : Prop where
  same : ∀ clock, s.answer clock args' = s.answer clock args
  code : ∀ clock clock', (s.answer clock' args').code = (s.answer clock args).code
  stderr : ∀ clock clock', (s.answer clock' args').stderr = (s.answer clock args).stderr
  stdout : ∀ clock clock',
    o.Retimed s clock clock' (s.answer clock args).stdout (s.answer clock' args').stdout

theorem Surroundings.AnswersAlike.of_same {args' : List String}
    (hargs : s.readArguments args = .ok o)
    (h : ∀ clock, s.answer clock args' = s.answer clock args) : s.AnswersAlike o args args' := by
  have hdisplay clock clock' :
      Options.Displays s clock clock' o o (s.answer clock args) (s.answer clock' args') := by
    rw [h clock', answer_of_readArguments hargs, answer_of_readArguments hargs]
    exact Options.perform_displays s clock clock' o o
  exact
    ⟨h, fun clock clock' => (hdisplay clock clock').code (.refl _ o),
      fun clock clock' => (hdisplay clock clock').stderr (.refl _ o),
      fun clock clock' => (hdisplay clock clock').retimed (.refl _ o)⟩

/-- A command line that names a file with the tokens of its text comes to the outcome of the same
command line without that file, whoever reads the arguments and the files, words the messages and
writes the log. The name may be put in front of the other arguments or anywhere between them. No
offset in a text of at most `Text.wordBound` characters takes more than 64 bits. -/
theorem answer_tokens_file (hargs : s.readArguments args = .ok o) (hown : o.tokens = none)
    (hfile : s.readFile o.file = .ok content) (hlength : content.length ≤ Text.wordBound)
    (htokens : s.readFile name = .ok (Token.listJson (Source.tokens ⟨title, content⟩)).compact) :
    (∀ args', s.readArguments args' = .ok { o with tokens := some name } →
      s.AnswersAlike o args args') ∧
      (s.TakesArguments → s.AnswersAlike o args (("--tokens=" ++ name) :: args)) := by
  have hall : ∀ args', s.readArguments args' = .ok { o with tokens := some name } →
      s.AnswersAlike o args args' := by
    intro args' hargs'
    apply Surroundings.AnswersAlike.of_same hargs
    intro clock
    rw [Surroundings.answer_of_readArguments hargs', Surroundings.answer_of_readArguments hargs,
      Options.perform_written clock hown hfile hlength htokens]
  exact ⟨hall, fun htakes => hall _ (htakes.tokens args o name hargs hown)⟩

theorem answer_tokens_file_unended :
    let content := "\"\\\t\" é"
    let json := "[\x7b\"type\":\"string\",\"source\":\"\\\"\\\\\\t\\\"\",\"index\":0\x7d," ++
      "\x7b\"type\":\"delimiter\",\"source\":\" \",\"index\":4\x7d," ++
      "\x7b\"type\":\"word\",\"source\":\"é\",\"index\":5\x7d]"
    let directory := Directory.ofList [("a.css", content), ("tokens/a.json", json)]
    let s := Surroundings.plain directory.read?
    let args := ["-d", "--max-depth", "2", "a.css"]
    let o := (Options.mk "a.css" none (some 2) fun _ => false).withFlag .debug
    s.readArguments args = .ok o ∧ s.readFile o.file = .ok content ∧
      content.length ≤ Text.wordBound ∧
      s.readFile "tokens/a.json" =
        .ok (Token.listJson (Source.tokens ⟨none, content⟩)).compact ∧
      s.TakesArguments ∧ s.AnswersAlike o args ("--tokens=tokens/a.json" :: args) ∧
      s.AnswersAlike o args ["a.css", "-dttokens/a.json", "--max-depth=2"] := by
  intro content json directory s args o
  have hargs : s.readArguments args = .ok o := by cbv
  have hother : s.readArguments ["a.css", "-dttokens/a.json", "--max-depth=2"] =
      .ok { o with tokens := some "tokens/a.json" } := by cbv
  have hfile : s.readFile o.file = .ok content := by cbv
  have hlength : content.length ≤ Text.wordBound := by decide
  have htokens : s.readFile "tokens/a.json" =
      .ok (Token.listJson (Source.tokens ⟨none, content⟩)).compact := by cbv
  have htakes : s.TakesArguments := Surroundings.plain_takesArguments _
  obtain ⟨hall, hfront⟩ := answer_tokens_file hargs rfl hfile hlength htokens
  exact ⟨hargs, hfile, hlength, htokens, htakes, hfront htakes, hall _ hother⟩

end RuleTree.CommandLine
