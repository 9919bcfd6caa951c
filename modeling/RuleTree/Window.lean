import RuleTree.Node

/-! Windows: the ranges of tokens that a parse works through, and how far it has come in each. -/
namespace RuleTree

structure Window where
  start : Nat
  position : Nat
  /-- The tokens from there to the end of the range. -/
  rest : List Token

namespace Window

def all (ts : List Token) : Window := ⟨0, 0, ts⟩

def stop (w : Window) : Nat := w.position + w.rest.length

def span (w : Window) (n : Nat) : Span := ⟨w.position, w.position + n⟩

/-- The window after its next `n` tokens were read. -/
def advance (w : Window) (n : Nat) : Window :=
  { w with position := w.position + n, rest := w.rest.drop n }

/-- The range of the unread tokens from the `first` to before the `last`, counted from the next
one. -/
def inside (w : Window) (first last : Nat) : Window :=
  ⟨w.position + first, w.position + first, (w.rest.take last).drop first⟩

@[simp] theorem advance_start (w : Window) (n : Nat) : (w.advance n).start = w.start := rfl
@[simp] theorem advance_position (w : Window) (n : Nat) :
    (w.advance n).position = w.position + n := rfl
@[simp] theorem advance_rest (w : Window) (n : Nat) : (w.advance n).rest = w.rest.drop n := rfl

end Window

end RuleTree
