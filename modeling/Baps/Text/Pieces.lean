/-
**Lines longer than the buffer.**

A line that does not fit is read as several strings, its pieces. Pieces cannot be told from short lines
once they are written out again, but where they end can: what is written out piece by piece reads back as
the same pieces.

* `Pieced` — **strings as they are read from any stream**; `reads_pieced`.
* `Pieced.reads_flatten`, `Pieced.flatten_inj` — they are read back, so their bytes determine them.
* `whole` — the lines of a stream; `reads_whole`: a stream is read line by line.
* `reads_ended` — **the pieces of a line**: none opens with a newline, unless the line fills its pieces.
-/

import Baps.Text.Fgets
import Mathlib.Data.List.Pairwise

namespace Baps.Text

variable {α : Type} {newline : α} {limit : Nat} {string pending line rest stream : List α}
  {strings others : List (List α)}

/-! ### Strings that are read -/

/-- A string that is complete: it has its newline, or fills the buffer. -/
def Closed (newline : α) (limit : Nat) (string : List α) : Prop :=
  Finished newline limit string ∨ (newline ∉ string ∧ string.length = limit)

/-- Strings read from a stream. -/
structure Pieced (newline : α) (limit : Nat) (strings : List (List α)) : Prop where
  each : ∀ string ∈ strings, Closed newline limit string ∨ Unfinished newline limit string
  ended : strings.Pairwise fun first _ => Closed newline limit first

theorem Pieced.nil : Pieced newline limit [] :=
  ⟨fun _ member => absurd member List.not_mem_nil, List.Pairwise.nil⟩

theorem Pieced.cons (closed : Closed newline limit string) (pieced : Pieced newline limit strings) :
    Pieced newline limit (string :: strings) :=
  ⟨List.forall_mem_cons.mpr ⟨.inl closed, pieced.each⟩,
    List.pairwise_cons.mpr ⟨fun _ _ => closed, pieced.ended⟩⟩

theorem Pieced.sublist (pieced : Pieced newline limit strings) (sub : others.Sublist strings) :
    Pieced newline limit others :=
  ⟨fun string member => pieced.each string (sub.subset member), pieced.ended.sublist sub⟩

section Reads

variable [DecidableEq α]

/-- **What is read is pieced.** -/
theorem reads_pieced (plain : newline ∉ pending) (room : pending.length < limit) (stream : List α) :
    Pieced newline limit (reads newline limit pending stream) := by
  induction stream generalizing pending with
  | nil =>
    rw [reads]
    split
    · exact .nil
    · rename_i some_symbol
      exact ⟨fun string member => List.mem_singleton.mp member ▸ .inr ⟨some_symbol, plain, room⟩,
        List.pairwise_singleton _ _⟩
  | cons symbol rest ih =>
    have positive : ([] : List α).length < limit := Nat.zero_lt_of_lt room
    rw [reads]
    by_cases ends : symbol = newline
    · rw [if_pos (.inl ends), ends]
      exact .cons (.inl ⟨pending, rfl, plain, room⟩) (ih List.not_mem_nil positive)
    · have longer : newline ∉ pending ++ [symbol] := by
        rw [List.mem_append, List.mem_singleton, not_or]
        exact ⟨plain, fun same => ends same.symm⟩
      by_cases full : pending.length + 1 = limit
      · rw [if_pos (.inr full)]
        exact .cons (.inr ⟨longer, by simpa using full⟩) (ih List.not_mem_nil positive)
      · rw [if_neg (not_or.mpr ⟨ends, full⟩)]
        refine ih longer ?_
        simp only [List.length_append, List.length_cons, List.length_nil]
        omega

/-- A complete string is read back, whatever follows. -/
theorem reads_closed (positive : 0 < limit) (closed : Closed newline limit string) :
    reads newline limit [] (string ++ rest) = string :: reads newline limit [] rest := by
  rcases closed with ⟨line, rfl, plain, short⟩ | ⟨plain, full⟩
  · rw [List.append_assoc, List.singleton_append, reads_line plain short]
  · refine reads_full plain full ?_
    rintro rfl
    rw [← full] at positive
    exact Nat.lt_irrefl 0 positive

/-- **What is written out piece by piece reads back as the same pieces.** -/
theorem Pieced.reads_flatten (positive : 0 < limit) (pieced : Pieced newline limit strings) :
    reads newline limit [] strings.flatten = strings := by
  induction strings with
  | nil => rfl
  | cons string others ih =>
    have later := ih (pieced.sublist (List.sublist_cons_self string others))
    rw [List.flatten_cons]
    rcases pieced.each string List.mem_cons_self with closed | unfinished
    · rw [reads_closed positive closed, later]
    · -- only the last string lacks its end
      cases others with
      | nil => rw [List.flatten_nil, List.append_nil, reads_last unfinished]
      | cons other more =>
        have closed := (List.pairwise_cons.mp pieced.ended).1 other List.mem_cons_self
        rw [reads_closed positive closed, later]

/-- **The bytes of pieces determine them.** -/
theorem Pieced.flatten_inj (positive : 0 < limit) (first : Pieced newline limit strings)
    (second : Pieced newline limit others) : strings.flatten = others.flatten ↔ strings = others := by
  constructor
  · intro same
    rw [← first.reads_flatten positive, same, second.reads_flatten positive]
  · exact congrArg List.flatten

theorem flatten_reads (pending stream : List α) :
    (reads newline limit pending stream).flatten = pending ++ stream := by
  induction stream generalizing pending with
  | nil =>
    rw [reads]
    split
    · rename_i none
      rw [none]
      rfl
    · simp
  | cons symbol rest ih =>
    rw [reads]
    split
    · rw [List.flatten_cons, ih, List.append_assoc]
      rfl
    · rw [ih, List.append_assoc]
      rfl

/-! ### Line by line -/

/-- Behind a newline, reading starts afresh. -/
theorem reads_newline (pending line rest : List α) :
    reads newline limit pending (line ++ newline :: rest) =
      reads newline limit pending (line ++ [newline]) ++ reads newline limit [] rest := by
  induction line generalizing pending with
  | nil => simp [reads]
  | cons symbol line ih =>
    rw [List.cons_append, List.cons_append, reads, reads]
    split
    · rw [ih, List.cons_append]
    · rw [ih]

/-- The lines of a stream with their newlines, `pending` being the beginning of the first. -/
def whole (newline : α) (pending : List α) : List α → List (List α)
  | [] => if pending = [] then [] else [pending]
  | symbol :: rest =>
      if symbol = newline then (pending ++ [symbol]) :: whole newline [] rest
      else whole newline (pending ++ [symbol]) rest

/-- A line with its newline, or a last line without. -/
def Ended (newline : α) (line : List α) : Prop :=
  (∃ text, line = text ++ [newline] ∧ newline ∉ text) ∨ (line ≠ [] ∧ newline ∉ line)

theorem whole_ended (plain : newline ∉ pending) (stream : List α) :
    ∀ line ∈ whole newline pending stream, Ended newline line := by
  induction stream generalizing pending with
  | nil =>
    intro line member
    rw [whole] at member
    split at member
    · exact nomatch member
    · rename_i some_symbol
      exact List.mem_singleton.mp member ▸ .inr ⟨some_symbol, plain⟩
  | cons symbol rest ih =>
    rw [whole]
    split
    · rename_i ends
      rw [ends]
      exact List.forall_mem_cons.mpr ⟨.inl ⟨pending, rfl, plain⟩, ih List.not_mem_nil⟩
    · rename_i other
      refine ih ?_
      rw [List.mem_append, List.mem_singleton, not_or]
      exact ⟨plain, fun same => other same.symm⟩

theorem reads_whole (pending stream : List α) :
    (whole newline pending stream).flatMap (reads newline limit []) =
      reads newline limit [] (pending ++ stream) := by
  induction stream generalizing pending with
  | nil =>
    rw [whole]
    split
    · rename_i none
      rw [none]
      rfl
    · simp
  | cons symbol rest ih =>
    rw [whole]
    split
    · rename_i ends
      rw [ends, reads_newline, List.flatMap_cons, ih, List.nil_append]
    · rw [ih, List.append_assoc, List.singleton_append]

/-! ### The pieces of a line -/

/-- A line that fills its pieces, so that its newline is a piece of its own. -/
def Fills (newline : α) (limit : Nat) (line : List α) : Prop :=
  line.getLast? = some newline ∧ 1 < line.length ∧ (line.length - 1) % limit = 0

instance (newline : α) (limit : Nat) (line : List α) : Decidable (Fills newline limit line) :=
  inferInstanceAs (Decidable (_ ∧ _))

theorem reads_text (positive : 0 < limit) (text : List α) (plain : newline ∉ text) :
    ∃ body, reads newline limit [] (text ++ [newline]) =
        body ++ (if text.length % limit = 0 then [[newline]] else []) ∧
      (∀ piece ∈ body, piece.head? ≠ some newline) ∧ (text ≠ [] → body ≠ []) := by
  induction size : text.length using Nat.strongRecOn generalizing text with
  | ind n ih =>
    subst size
    have notNewline : ∀ piece : List α, newline ∉ piece → piece.head? ≠ some newline :=
      fun piece none head => none (List.mem_of_head? head)
    by_cases short : text.length < limit
    · rw [reads_line plain short, reads_nil]
      cases text with
      | nil => exact ⟨[], by simp, fun _ member => absurd member List.not_mem_nil,
          fun nil => absurd rfl nil⟩
      | cons symbol more =>
        refine ⟨[symbol :: more ++ [newline]], ?_, fun piece member => ?_, fun _ => List.cons_ne_nil _ _⟩
        · rw [Nat.mod_eq_of_lt short, if_neg (by simp), List.append_nil]
        · rw [List.mem_singleton.mp member]
          exact fun head => plain (by rw [← Option.some.inj head]; exact List.mem_cons_self)
    · have taken : (text.take limit).length = limit := by
        rw [List.length_take]
        omega
      have plainTaken : newline ∉ text.take limit := fun member => plain (List.mem_of_mem_take member)
      obtain ⟨body, eq, heads, -⟩ := ih (text.drop limit).length (by rw [List.length_drop]; omega)
        (text.drop limit) (fun member => plain (List.mem_of_mem_drop member)) rfl
      refine ⟨text.take limit :: body, ?_, ?_, fun _ => List.cons_ne_nil _ _⟩
      · have split : text ++ [newline] = text.take limit ++ (text.drop limit ++ [newline]) := by
          rw [← List.append_assoc, List.take_append_drop]
        rw [split, reads_closed positive (.inr ⟨plainTaken, taken⟩), eq, List.length_drop,
          ← Nat.mod_eq_sub_mod (Nat.le_of_not_lt short), List.cons_append]
      · exact List.forall_mem_cons.mpr ⟨notNewline _ plainTaken, heads⟩

/-- **The pieces of a line** that is not empty: some do not open with a newline, and behind them there is
the newline by itself if the line fills them. -/
theorem reads_ended (positive : 0 < limit) (ended : Ended newline line) (notBlank : line ≠ [newline]) :
    ∃ body, reads newline limit [] line = body ++ (if Fills newline limit line then [[newline]] else []) ∧
      (∀ piece ∈ body, piece.head? ≠ some newline) ∧ body ≠ [] := by
  rcases ended with ⟨text, rfl, plain⟩ | ⟨some_symbol, plain⟩
  · have some_text : text ≠ [] := by
      rintro rfl
      exact notBlank rfl
    obtain ⟨body, eq, heads, nonempty⟩ := reads_text positive text plain
    have fills : Fills newline limit (text ++ [newline]) ↔ text.length % limit = 0 := by
      have size := List.length_pos_iff.mpr some_text
      simp [Fills, size]
    exact ⟨body, by rw [eq, if_congr fills rfl rfl], heads, nonempty some_text⟩
  · refine ⟨reads newline limit [] line, ?_, fun piece member head => ?_, ?_⟩
    · rw [if_neg fun fills => plain (List.mem_of_getLast? fills.1), List.append_nil]
    · rcases mem_of_reads line member (List.mem_of_head? head) with none | found
      · exact nomatch none
      · exact plain found
    · intro none
      have bytes := @flatten_reads _ newline limit _ [] line
      rw [none] at bytes
      exact some_symbol bytes.symm

end Reads

end Baps.Text
