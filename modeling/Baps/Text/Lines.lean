/-
**Terminated lines of a stream.**

A stream of symbols, some of which are separators. A line is a maximal run of other symbols; it
counts once a separator has ended it, and empty lines do not count. `finish` collects the lines,
`unfinished` is what a later separator would still end.

* `finish_append` — a stream can be cut anywhere, if the unfinished part is carried over.
* `finish_line` — one line, with separators around it.
-/

import Mathlib.Logic.Basic

namespace Baps.Text

variable {α : Type} (sep : α → Bool)

/-- The lines that end in the stream, the first of them started by `pending`. -/
def finish (pending : List α) : List α → List (List α)
  | [] => []
  | symbol :: rest =>
      if sep symbol then
        if pending = [] then finish [] rest else pending :: finish [] rest
      else finish (pending ++ [symbol]) rest

/-- The line the stream leaves unfinished. -/
def unfinished (pending : List α) : List α → List α
  | [] => pending
  | symbol :: rest =>
      if sep symbol then unfinished [] rest else unfinished (pending ++ [symbol]) rest

/-- The non-empty terminated lines of a stream. -/
def lines (stream : List α) : List (List α) := finish sep [] stream

theorem finish_append (pending first second : List α) :
    finish sep pending (first ++ second) =
      finish sep pending first ++ finish sep (unfinished sep pending first) second := by
  induction first generalizing pending with
  | nil => rfl
  | cons symbol rest ih =>
    simp only [List.cons_append, finish, unfinished, ih]
    split
    · split <;> rfl
    · rfl

theorem unfinished_append (pending first second : List α) :
    unfinished sep pending (first ++ second) =
      unfinished sep (unfinished sep pending first) second := by
  induction first generalizing pending with
  | nil => rfl
  | cons symbol rest ih =>
    simp only [List.cons_append, unfinished, ih]
    split <;> rfl

/-- Separators alone end no line. -/
theorem finish_separators {stream : List α} (all : ∀ symbol ∈ stream, sep symbol = true) :
    finish sep [] stream = [] ∧ unfinished sep [] stream = [] := by
  induction stream with
  | nil => exact ⟨rfl, rfl⟩
  | cons symbol rest ih =>
    have first := all symbol List.mem_cons_self
    have later := ih fun other member => all other (List.mem_cons_of_mem _ member)
    simp [finish, unfinished, first, later]

/-- Other symbols are kept. -/
theorem unfinished_symbols {stream : List α} (plain : ∀ symbol ∈ stream, sep symbol = false)
    (pending : List α) :
    finish sep pending stream = [] ∧ unfinished sep pending stream = pending ++ stream := by
  induction stream generalizing pending with
  | nil => exact ⟨rfl, (List.append_nil _).symm⟩
  | cons symbol rest ih =>
    have first := plain symbol List.mem_cons_self
    have later := ih (fun other member => plain other (List.mem_cons_of_mem _ member))
      (pending ++ [symbol])
    simp [finish, unfinished, first, later]

/-- **A line, and what follows its separator.** -/
theorem lines_line {line rest : List α} {symbol : α} (plain : ∀ symbol ∈ line, sep symbol = false)
    (nonempty : line ≠ []) (ends : sep symbol = true) :
    lines sep (line ++ symbol :: rest) = line :: lines sep rest := by
  obtain ⟨none, whole⟩ := unfinished_symbols sep plain []
  rw [lines, finish_append, none, whole, List.nil_append, List.nil_append, finish, if_pos ends,
    if_neg nonempty, lines]

/-- An empty line does not count. -/
theorem lines_empty {rest : List α} {symbol : α} (ends : sep symbol = true) :
    lines sep (symbol :: rest) = lines sep rest := by
  rw [lines, finish, if_pos ends, if_pos rfl, lines]

/-- **One line with separators around it.** -/
theorem finish_line {before line after : List α} (lead : ∀ symbol ∈ before, sep symbol = true)
    (plain : ∀ symbol ∈ line, sep symbol = false) (trail : ∀ symbol ∈ after, sep symbol = true)
    (nonempty : line ≠ []) (ended : after ≠ []) :
    finish sep [] (before ++ line ++ after) = [line] ∧
      unfinished sep [] (before ++ line ++ after) = [] := by
  obtain ⟨leadLines, leadRest⟩ := finish_separators sep lead
  obtain ⟨lineLines, lineRest⟩ := unfinished_symbols sep plain []
  obtain ⟨first, rest, rfl⟩ := List.exists_cons_of_ne_nil ended
  have one := trail first List.mem_cons_self
  have others : ∀ symbol ∈ rest, sep symbol = true :=
    fun other member => trail other (List.mem_cons_of_mem _ member)
  obtain ⟨restLines, restRest⟩ := finish_separators sep others
  rw [finish_append, finish_append, unfinished_append, unfinished_append, leadLines, leadRest,
    lineLines, lineRest]
  simp [finish, unfinished, one, nonempty, restLines, restRest]

end Baps.Text
