import Mathlib.Tactic
import RuleTree.CommandLine.Outcome
import RuleTree.Success

/-! Arguments that are taken without fault, and what a token file that is named among them changes,
or a flag that is raised: nothing but its own place. Whoever reads the arguments of a command line
is asked for no more than this. -/
namespace RuleTree.CommandLine

/-- The arguments lead from one draft to another. -/
inductive Takes : Draft → List String → Draft → Prop where
  | done (d : Draft) : Takes d [] d
  | files {d e : Draft} {rest : List String} (h : rest.foldlM Draft.addFile d = .ok e) :
    Takes d ("--" :: rest) e
  | single {d d' e : Draft} {s : String} {rest : List String} (hs : s ≠ "--")
    (h : takeArgument d s = .ok (d', none)) (hmore : Takes d' rest e) : Takes d (s :: rest) e
  | pair {d d' d'' e : Draft} {s value : String} {setting : Setting} {rest : List String}
    (hs : s ≠ "--") (h : takeArgument d s = .ok (d', some setting))
    (hplain : (Argument.ofString value).isPlain) (hset : d'.set setting value = .ok d'')
    (hmore : Takes d'' rest e) : Takes d (s :: value :: rest) e

theorem Takes.takeAll {d e : Draft} {args : List String} (h : Takes d args e) :
    takeAll d args = .ok e := by
  induction h with
  | done d => rw [CommandLine.takeAll]
  | files h => rw [CommandLine.takeAll, if_pos rfl, h]
  | single hs h hmore ih =>
    rw [CommandLine.takeAll, if_neg hs, h, ok_bind]
    exact ih
  | pair hs h hplain hset hmore ih =>
    rw [CommandLine.takeAll, if_neg hs, h, ok_bind]
    simp only [hplain, if_true, hset, ok_bind]
    exact ih

theorem takes_of_takeAll {d e : Draft} {args : List String} (h : takeAll d args = .ok e) :
    Takes d args e := by
  induction hn : args.length using Nat.strong_induction_on generalizing d args with
  | _ n ih =>
    cases args with
    | nil =>
      rw [takeAll] at h
      cases h
      exact .done _
    | cons s rest =>
      rw [takeAll] at h
      split at h
      next hs =>
        subst hs
        exact .files h
      next hs =>
        obtain ⟨⟨d', pending⟩, hstep, hmore⟩ := bind_eq_ok_iff.mp h
        cases pending with
        | none => exact .single hs hstep (ih rest.length (by simp_all; omega) hmore rfl)
        | some setting =>
          cases rest with
          | nil => cases hmore
          | cons value rest =>
            simp only at hmore
            split at hmore
            next hplain =>
              obtain ⟨d'', hset, hmore⟩ := bind_eq_ok_iff.mp hmore
              exact .pair hs hstep hplain hset
                (ih rest.length (by simp only [List.length_cons] at hn; omega) hmore rfl)
            next => cases hmore

theorem takes_iff {d e : Draft} {args : List String} : Takes d args e ↔ takeAll d args = .ok e :=
  ⟨Takes.takeAll, takes_of_takeAll⟩

/-- A change of a draft that steps do not notice: what is done without fault, and leaves its place
free, is done alike in the changed draft. -/
structure Addition where
  change : Draft → Draft
  Free : Draft → Prop
  addFile {d e : Draft} {file : String} (h : d.addFile file = .ok e) (free : Free e) :
    Free d ∧ (change d).addFile file = .ok (change e)
  raise {d e : Draft} {f : Flag} (h : d.raise f = .ok e) (free : Free e) :
    Free d ∧ (change d).raise f = .ok (change e)
  set {d e : Draft} {s : Setting} {value : String} (h : d.set s value = .ok e) (free : Free e) :
    Free d ∧ (change d).set s value = .ok (change e)

namespace Addition
variable {d e : Draft} {pending : Option Setting} (a : Addition)

theorem addFiles {files : List String} (h : files.foldlM Draft.addFile d = .ok e)
    (free : a.Free e) :
    a.Free d ∧ files.foldlM Draft.addFile (a.change d) = .ok (a.change e) := by
  induction files generalizing d with
  | nil =>
    cases h
    exact ⟨free, rfl⟩
  | cons file files ih =>
    rw [List.foldlM_cons] at h
    obtain ⟨d', hfile, hmore⟩ := bind_eq_ok_iff.mp h
    obtain ⟨free', hmore'⟩ := ih hmore
    obtain ⟨free'', hfile'⟩ := a.addFile hfile free'
    refine ⟨free'', ?_⟩
    rw [List.foldlM_cons, hfile', ok_bind, hmore']

/-- A step that is taken whole is noticed as little as its change of the draft. -/
theorem map_ok {x y : Except Stop Draft}
    (hlift : ∀ {e}, x = .ok e → a.Free e → a.Free d ∧ y = .ok (a.change e))
    (h : (x.map fun d => (d, (none : Option Setting))) = .ok (e, pending)) (free : a.Free e) :
    a.Free d ∧ (y.map fun d => (d, (none : Option Setting))) = .ok (a.change e, pending) := by
  obtain ⟨d', hd', heq⟩ := map_eq_ok_iff.mp h
  cases heq
  obtain ⟨hd, hy⟩ := hlift hd' free
  refine ⟨hd, ?_⟩
  rw [hy]
  rfl

theorem takeNamed {name : String} {value : Option String}
    (h : takeNamed d name value = .ok (e, pending)) (free : a.Free e) :
    a.Free d ∧ CommandLine.takeNamed (a.change d) name value = .ok (a.change e, pending) := by
  unfold CommandLine.takeNamed at h ⊢
  split at h
  next => exact a.map_ok a.set h free
  next =>
    cases h
    exact ⟨free, rfl⟩
  next => exact a.map_ok a.raise h free
  all_goals cases h

theorem takeLetters {cs : List Char} (h : takeLetters d cs = .ok (e, pending))
    (free : a.Free e) :
    a.Free d ∧ CommandLine.takeLetters (a.change d) cs = .ok (a.change e, pending) := by
  induction cs generalizing d with
  | nil =>
    cases h
    exact ⟨free, rfl⟩
  | cons c cs ih =>
    unfold CommandLine.takeLetters at h ⊢
    split at h
    next =>
      obtain ⟨d', hraise, hmore⟩ := bind_eq_ok_iff.mp h
      obtain ⟨hd', hmore⟩ := ih hmore
      obtain ⟨hd, hraise⟩ := a.raise hraise hd'
      refine ⟨hd, ?_⟩
      rw [hraise]
      exact hmore
    next =>
      split at h
      next =>
        cases h
        exact ⟨free, rfl⟩
      all_goals exact a.map_ok a.set h free
    all_goals cases h

theorem takeArgument {s : String} (h : takeArgument d s = .ok (e, pending)) (free : a.Free e) :
    a.Free d ∧ CommandLine.takeArgument (a.change d) s = .ok (a.change e, pending) := by
  unfold CommandLine.takeArgument at h ⊢
  split at h
  next => exact a.map_ok a.addFile h free
  next => exact a.takeNamed h free
  next => exact a.takeLetters h free

/-- Arguments that leave the place of an addition free take it along. -/
theorem takes {args : List String} (h : Takes d args e) (free : a.Free e) :
    a.Free d ∧ Takes (a.change d) args (a.change e) := by
  induction h with
  | done d => exact ⟨free, .done _⟩
  | files h =>
    obtain ⟨hd, h⟩ := a.addFiles h free
    exact ⟨hd, .files h⟩
  | single hs h hmore ih =>
    obtain ⟨hd', hmore⟩ := ih free
    obtain ⟨hd, h⟩ := a.takeArgument h hd'
    exact ⟨hd, .single hs h hmore⟩
  | pair hs h hplain hset hmore ih =>
    obtain ⟨hd'', hmore⟩ := ih free
    obtain ⟨hd', hset⟩ := a.set hset hd''
    obtain ⟨hd, h⟩ := a.takeArgument h hd'
    exact ⟨hd, .pair hs h hplain hset hmore⟩

/-- An argument that makes an addition can be put in front of arguments that leave its place
free. -/
theorem takeAll_cons {args : List String} {s : String} (hs : s ≠ "--")
    (hstep : CommandLine.takeArgument {} s = .ok (a.change {}, none))
    (h : takeAll {} args = .ok e) (free : a.Free e) :
    takeAll {} (s :: args) = .ok (a.change e) := by
  obtain ⟨-, htaken⟩ := a.takes (takes_iff.mpr h) free
  exact takes_iff.mp (.single hs hstep htaken)

end Addition

namespace Draft
variable {d e : Draft} {value : String}

/-- The draft with a token file besides. -/
def withTokens (d : Draft) (name : String) : Draft := { d with tokens := some name }

/-- The draft with a flag raised besides. -/
def withFlag (d : Draft) (f : Flag) : Draft :=
  { d with flags := fun g => decide (g = f) || d.flags g }

theorem addFile_eq_ok_iff :
    d.addFile value = .ok e ↔ d.file = none ∧ { d with file := some value } = e := by
  cases hfile : d.file <;> simp [addFile, hfile]

theorem raise_eq_ok_iff {f : Flag} :
    d.raise f = .ok e ↔ d.flags f = false ∧ d.withFlag f = e := by
  cases hflag : d.flags f <;> simp [raise, withFlag, hflag]

theorem set_tokens_eq_ok_iff :
    d.set .tokens value = .ok e ↔ d.tokens = none ∧ d.withTokens value = e := by
  cases htokens : d.tokens <;> simp [set, withTokens, htokens]

theorem set_maxDepth_eq_ok_iff :
    d.set .maxDepth value = .ok e ↔
      d.maxDepth = none ∧ ∃ n, count? value = some n ∧ { d with maxDepth := some n } = e := by
  cases hdepth : d.maxDepth with
  | none => cases hcount : count? value <;> simp [set, hdepth, hcount]
  | some n => simp [set, hdepth]

end Draft

namespace Addition
open Draft

def tokens (name : String) : Addition where
  change d := d.withTokens name
  Free d := d.tokens = none
  addFile h free := by
    obtain ⟨hfile, rfl⟩ := addFile_eq_ok_iff.mp h
    exact ⟨free, addFile_eq_ok_iff.mpr ⟨hfile, rfl⟩⟩
  raise h free := by
    obtain ⟨hflag, rfl⟩ := raise_eq_ok_iff.mp h
    exact ⟨free, raise_eq_ok_iff.mpr ⟨hflag, rfl⟩⟩
  set {d e s value} h free := by
    cases s with
    | tokens =>
      obtain ⟨-, rfl⟩ := set_tokens_eq_ok_iff.mp h
      cases free
    | maxDepth =>
      obtain ⟨hdepth, n, hn, rfl⟩ := set_maxDepth_eq_ok_iff.mp h
      exact ⟨free, set_maxDepth_eq_ok_iff.mpr ⟨hdepth, n, hn, rfl⟩⟩

def flag (f : Flag) : Addition where
  change d := d.withFlag f
  Free d := d.flags f = false
  addFile h free := by
    obtain ⟨hfile, rfl⟩ := addFile_eq_ok_iff.mp h
    exact ⟨free, addFile_eq_ok_iff.mpr ⟨hfile, rfl⟩⟩
  raise {d e g} h free := by
    obtain ⟨hflag, rfl⟩ := raise_eq_ok_iff.mp h
    obtain ⟨hne, hd⟩ := Bool.or_eq_false_iff.mp free
    refine ⟨hd, raise_eq_ok_iff.mpr ⟨?_, ?_⟩⟩
    · -- the flag that is raised is not the one that is added
      simp [withFlag, Ne.symm (of_decide_eq_false hne), hflag]
    · simp only [withFlag, Bool.or_left_comm]
  set {d e s value} h free := by
    cases s with
    | tokens =>
      obtain ⟨htokens, rfl⟩ := set_tokens_eq_ok_iff.mp h
      exact ⟨free, set_tokens_eq_ok_iff.mpr ⟨htokens, rfl⟩⟩
    | maxDepth =>
      obtain ⟨hdepth, n, hn, rfl⟩ := set_maxDepth_eq_ok_iff.mp h
      exact ⟨free, set_maxDepth_eq_ok_iff.mpr ⟨hdepth, n, hn, rfl⟩⟩

end Addition

/-- The argument that raises a flag by its name. -/
def Flag.argument : Flag → String
  | .printTokens => "--print-tokens"
  | .json => "--json"
  | .quiet => "--quiet"
  | .noColor => "--no-color"
  | .debug => "--debug"

theorem takeArgument_flag (d : Draft) (f : Flag) :
    takeArgument d f.argument = (d.raise f).map fun d => (d, none) := by
  cases f <;> rfl

theorem takeArgument_tokensSwitch {d : Draft} (h : d.tokens = none) (name : String) :
    takeArgument d ("--tokens=" ++ name) = .ok (d.withTokens name, none) := by
  have hlist : ("--tokens=" ++ name).toList = "--tokens=".toList ++ name.toList :=
    String.toList_append
  have hargument : Argument.ofString ("--tokens=" ++ name) = .named "tokens" (some name) := by
    simp [Argument.ofString, hlist]
  have hswitch : Switch.ofName? "tokens" = some (.setting .tokens) := rfl
  simp only [takeArgument, hargument, takeNamed, hswitch, Draft.set, h, Option.isSome_none,
    Bool.false_eq_true, if_false]
  rfl

namespace Options
variable {args : List String} {o : Options}

/-- The draft from which the options come. -/
def draft (o : Options) : Draft := ⟨some o.file, o.tokens, o.maxDepth, o.flags⟩

theorem ofArguments_eq_ok_iff : ofArguments args = .ok o ↔ takeAll {} args = .ok o.draft := by
  constructor
  · intro h
    obtain ⟨⟨_ | file, tokens, maxDepth, flags⟩, hall, hoptions⟩ := bind_eq_ok_iff.mp h
    · cases hoptions
    · cases hoptions
      exact hall
  · intro h
    rw [ofArguments, h, ok_bind]
    rfl

/-- Naming a token file in front of arguments that name none sets the token file and nothing
else. -/
theorem ofArguments_tokens (h : ofArguments args = .ok o) (hnone : o.tokens = none)
    (name : String) :
    ofArguments (("--tokens=" ++ name) :: args) = .ok { o with tokens := some name } := by
  have hfront : ("--tokens=" ++ name) ≠ "--" := by
    intro hdashes
    have hlength := congrArg String.length hdashes
    rw [String.length_append] at hlength
    have : "--tokens=".length = 9 := rfl
    have : "--".length = 2 := rfl
    omega
  rw [ofArguments_eq_ok_iff] at h ⊢
  exact (Addition.tokens name).takeAll_cons hfront (takeArgument_tokensSwitch rfl name) h hnone

/-- The options with a flag raised besides. -/
def withFlag (o : Options) (f : Flag) : Options :=
  { o with flags := fun g => decide (g = f) || o.flags g }

/-- Raising a flag in front of arguments that do not raise it changes nothing else. -/
theorem ofArguments_flag {f : Flag} (h : ofArguments args = .ok o) (hfree : o.flags f = false) :
    ofArguments (f.argument :: args) = .ok (o.withFlag f) := by
  have hfront : f.argument ≠ "--" := by cases f <;> decide
  rw [ofArguments_eq_ok_iff] at h ⊢
  exact (Addition.flag f).takeAll_cons hfront (takeArgument_flag {} f) h hfree

end Options

namespace Surroundings

/-- An argument in front of others sets what it is for, if they leave it free, and nothing else. -/
structure TakesArguments {Time : Type} (s : Surroundings Time) : Prop where
  flag : ∀ args o f, s.readArguments args = .ok o → o.flags f = false →
    s.readArguments (f.argument :: args) = .ok (o.withFlag f)
  tokens : ∀ args o name, s.readArguments args = .ok o → o.tokens = none →
    s.readArguments (("--tokens=" ++ name) :: args) = .ok { o with tokens := some name }

theorem plain_readArguments_eq_ok_iff {files : Files} {args : List String} {o : Options} :
    (plain files).readArguments args = .ok o ↔ Options.ofArguments args = .ok o := by
  simp only [plain]
  cases Options.ofArguments args <;> simp [Except.mapError]

theorem plain_takesArguments (files : Files) : (plain files).TakesArguments where
  flag args o f h hfree := by
    rw [plain_readArguments_eq_ok_iff] at h ⊢
    exact Options.ofArguments_flag h hfree
  tokens args o name h hnone := by
    rw [plain_readArguments_eq_ok_iff] at h ⊢
    exact Options.ofArguments_tokens h hnone name

end Surroundings

end RuleTree.CommandLine
