/-!
# Ordered choices

A finite sequence of alternatives, best first, whose later members are computed only when an
earlier one turned out not to lead on. Main statements: joining and chaining choices are joining
and chaining of the lists of their members.
-/

namespace SourceSurvey.Pattern

/-- Alternatives in order of preference. -/
inductive Choices (α : Type) where
  | none
  | next (first : α) (others : Unit → Choices α)

namespace Choices

variable {α β : Type}

/-- The only alternative. -/
def one (a : α) : Choices α :=
  .next a fun _ => .none

/-- The best alternative. -/
def first? : Choices α → Option α
  | .none => Option.none
  | .next a _ => some a

/-- All alternatives, best first. -/
def toList : Choices α → List α
  | .none => []
  | .next a others => a :: (others ()).toList

/-- The alternatives of the first, then those of the second. -/
def append : Choices α → (Unit → Choices α) → Choices α
  | .none, ys => ys ()
  | .next a others, ys => .next a fun _ => (others ()).append ys

/-- Every alternative continued in all its ways. -/
def bind : Choices α → (α → Choices β) → Choices β
  | .none, _ => .none
  | .next a others, f => (f a).append fun _ => (others ()).bind f

/-- Every alternative changed by a function. -/
def map (f : α → β) : Choices α → Choices β
  | .none => .none
  | .next a others => .next (f a) fun _ => (others ()).map f

@[simp] theorem toList_none : (none : Choices α).toList = [] := rfl

@[simp] theorem toList_one (a : α) : (one a).toList = [a] := rfl

/-- The preferred way is the first one that is listed. -/
theorem first?_eq_head? (xs : Choices α) : xs.first? = xs.toList.head? := by
  cases xs <;> rfl

/-- Of two lists of ways the first comes first. -/
@[simp] theorem toList_append (xs : Choices α) (ys : Unit → Choices α) :
    (xs.append ys).toList = xs.toList ++ (ys ()).toList := by
  induction xs with
  | none => rfl
  | next a others ih => simp [append, toList, ih]

/-- A function on the ways keeps their order. -/
@[simp] theorem toList_map (f : α → β) (xs : Choices α) :
    (xs.map f).toList = xs.toList.map f := by
  induction xs with
  | none => rfl
  | next a others ih => simp [map, toList, ih]

/-- Each way is replaced by those that it leads to, in their order. -/
@[simp] theorem toList_bind (xs : Choices α) (f : α → Choices β) :
    (xs.bind f).toList = xs.toList.flatMap fun a => (f a).toList := by
  induction xs with
  | none => rfl
  | next a others ih => simp [bind, toList, ih]

end Choices

end SourceSurvey.Pattern
