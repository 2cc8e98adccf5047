import Mathlib.Data.List.Basic

/-! The last line of a terminal.

A terminal puts the characters that it is sent at its cursor. What is here of it is
the line that the cursor is in, over arbitrary cells: printing, the control
characters that move the cursor inside the line, and the one that goes on to a new
line. The line is as long as it needs to be. `Shows` says that a text ends at the
cursor and nothing is behind it; `erase_shows` is the three characters that take the
last cell of it off again. -/
namespace Idic.Terminal

/-- What a terminal does with a character. -/
inductive Action (α : Type) where
  | print (c : α)
  | back
  | home
  | feed
  deriving DecidableEq, Repr

/-- The lines above, the cells left of the cursor, the nearest one first, and the cells
from the cursor on. -/
structure Screen (α : Type) where
  above : List (List α)
  left : List α
  right : List α
  deriving DecidableEq, Repr

namespace Screen
variable {α : Type}

/-- The text of the cursor's line. -/
def text (s : Screen α) : List α := s.left.reverse ++ s.right

/-- The cells of a new line are empty, as is everything behind the last cell. -/
def act (s : Screen α) : Action α → Screen α
  | .print c => {s with left := c :: s.left, right := s.right.tail}
  | .back =>
    match s.left with
    | [] => s
    | c :: rest => {s with left := rest, right := c :: s.right}
  | .home => {s with left := [], right := s.text}
  | .feed => {above := s.above ++ [s.text], left := [], right := []}

def run (s : Screen α) (actions : List (Action α)) : Screen α := actions.foldl act s

theorem run_append (s : Screen α) (a b : List (Action α)) : s.run (a ++ b) = (s.run a).run b :=
  List.foldl_append

theorem act_back_above (s : Screen α) : (s.act .back).above = s.above := by
  obtain ⟨above, left, right⟩ := s
  cases left <;> rfl

/-- The text ends at the cursor, and only blanks are behind it. -/
structure Shows (blank : α) (text : List α) (s : Screen α) : Prop where
  before : s.left.reverse = text
  behind : ∀ c ∈ s.right, c = blank

variable {blank : α} {t : List α} {s : Screen α}

theorem Shows.print (h : Shows blank t s) (c : α) : Shows blank (t ++ [c]) (s.act (.print c)) where
  before := by
    show (c :: s.left).reverse = t ++ [c]
    rw [List.reverse_cons, h.before]
  behind d hd := h.behind d (List.mem_of_mem_tail hd)

/-- Back, a blank, and back again. -/
def erase (blank : α) : List (Action α) := [.back, .print blank, .back]

/-- The last cell becomes a blank, and the cursor is in it. -/
theorem erase_shows {c : α} (h : Shows blank (t ++ [c]) s) : Shows blank t (s.run (erase blank)) := by
  obtain ⟨above, left, right⟩ := s
  have hleft : left = c :: t.reverse := by
    rw [← List.reverse_reverse left, h.before, List.reverse_append]
    rfl
  subst hleft
  have hright : (⟨above, c :: t.reverse, right⟩ : Screen α).run (erase blank) =
      ⟨above, t.reverse, blank :: right⟩ := rfl
  rw [hright]
  refine ⟨List.reverse_reverse t, fun d hd => ?_⟩
  rcases List.mem_cons.mp hd with heq | hd
  · exact heq
  · exact h.behind d hd

/-- To the start of the line, and on to the next one. -/
def newline : List (Action α) := [.home, .feed]

theorem newline_shows (blank : α) (s : Screen α) : Shows blank [] (s.run newline) :=
  ⟨rfl, fun _ hd => nomatch hd⟩

/-- What was shown stays on the line above, with blanks behind it. -/
theorem Shows.newline_above (h : Shows blank t s) :
    ∃ blanks, (∀ c ∈ blanks, c = blank) ∧ (s.run newline).above = s.above ++ [t ++ blanks] := by
  refine ⟨s.right, h.behind, ?_⟩
  show s.above ++ [([] : List α).reverse ++ s.text] = _
  rw [List.reverse_nil, List.nil_append, text, h.before]

end Screen

end Idic.Terminal
