/-
**Reading a stream string by string.**

`reads` is what successive calls of `fgets` return: a string ends behind a newline, or when it has
reached the size of the buffer, or with the stream. A stream that is cut into short lines is read back
line by line (`reads_flatten`), whatever follows it.

* `Cut limit strings` — **strings as `fgets` returns them from short lines**: the last may lack its
  newline, the others not. Leaving strings out keeps this (`Cut.sublist`).
-/

import Mathlib.Data.List.Basic

namespace Baps.Text

variable {α : Type} (newline : α) (limit : Nat)

/-! ### Strings of short lines -/

/-- A string that ends with its newline. -/
def Finished (string : List α) : Prop :=
  ∃ line, string = line ++ [newline] ∧ newline ∉ line ∧ line.length < limit

/-- A string that lacks its newline. -/
def Unfinished (string : List α) : Prop := string ≠ [] ∧ newline ∉ string ∧ string.length < limit

/-- Strings read from short lines. -/
structure Cut (strings : List (List α)) : Prop where
  each : ∀ string ∈ strings, Finished newline limit string ∨ Unfinished newline limit string
  ended : strings.Pairwise fun first _ => Finished newline limit first

section Cut

variable {newline limit} {string : List α} {strings others : List (List α)}

theorem Finished.ne_nil (finished : Finished newline limit string) : string ≠ [] := by
  obtain ⟨line, rfl, -, -⟩ := finished
  simp

theorem Unfinished.not_finished (unfinished : Unfinished newline limit string) :
    ¬ Finished newline limit string := by
  rintro ⟨line, rfl, -, -⟩
  exact unfinished.2.1 (by simp)

theorem Cut.sublist (cut : Cut newline limit strings) (sub : others.Sublist strings) :
    Cut newline limit others :=
  ⟨fun string member => cut.each string (sub.subset member), cut.ended.sublist sub⟩

/-- All strings are finished, or all but the last. -/
theorem Cut.finished_or (cut : Cut newline limit strings) :
    (∀ string ∈ strings, Finished newline limit string) ∨
      ∃ start last, strings = start ++ [last] ∧ (∀ string ∈ start, Finished newline limit string) ∧
        Unfinished newline limit last := by
  rcases List.eq_nil_or_concat strings with rfl | ⟨start, last, rfl⟩
  · exact .inl fun string member => absurd member List.not_mem_nil
  · rw [List.concat_eq_append] at cut ⊢
    have before : ∀ string ∈ start, Finished newline limit string := fun string member =>
      (List.pairwise_append.mp cut.ended).2.2 string member last (List.mem_singleton.mpr rfl)
    rcases cut.each last (by simp) with finished | unfinished
    · refine .inl fun string member => ?_
      rcases List.mem_append.mp member with inStart | isLast
      · exact before string inStart
      · exact List.mem_singleton.mp isLast ▸ finished
    · exact .inr ⟨start, last, rfl, before, unfinished⟩

end Cut

/-! ### Reading -/

variable [DecidableEq α]

/-- The strings that successive reads of at most `limit` symbols return; `pending` has been read of the
first. -/
def reads (pending : List α) : List α → List (List α)
  | [] => if pending = [] then [] else [pending]
  | symbol :: rest =>
      if symbol = newline ∨ pending.length + 1 = limit then (pending ++ [symbol]) :: reads [] rest
      else reads (pending ++ [symbol]) rest

section Reads

variable {newline limit} {line pending rest : List α} {strings : List (List α)}

@[simp] theorem reads_nil : reads newline limit [] [] = [] := rfl

/-- The symbols of a line, as long as there is room. -/
theorem reads_symbols (plain : newline ∉ line) (short : pending.length + line.length < limit) :
    reads newline limit pending (line ++ rest) = reads newline limit (pending ++ line) rest := by
  induction line generalizing pending with
  | nil => simp
  | cons symbol line ih =>
    rw [List.mem_cons, not_or] at plain
    have room : ¬ (symbol = newline ∨ pending.length + 1 = limit) := by
      rintro (same | full)
      · exact plain.1 same.symm
      · simp only [List.length_cons] at short
        omega
    simp only [List.cons_append, reads]
    rw [if_neg room, ih plain.2]
    · rw [List.append_assoc, List.singleton_append]
    · simp only [List.length_append, List.length_cons, List.length_nil] at short ⊢
      omega

/-- **A line that fits.** -/
theorem reads_line (plain : newline ∉ line) (short : line.length < limit) :
    reads newline limit [] (line ++ newline :: rest) =
      (line ++ [newline]) :: reads newline limit [] rest := by
  rw [reads_symbols plain (by simpa using short)]
  simp [reads]

/-- The last line, without its newline. -/
theorem reads_last (unfinished : Unfinished newline limit line) :
    reads newline limit [] line = [line] := by
  obtain ⟨some_symbol, plain, short⟩ := unfinished
  have whole : reads newline limit [] (line ++ []) = reads newline limit ([] ++ line) [] :=
    reads_symbols plain (by simpa using short)
  rw [List.append_nil, List.nil_append] at whole
  rw [whole, reads, if_neg some_symbol]

/-- **A line that fills the buffer.** -/
theorem reads_full (plain : newline ∉ line) (full : line.length = limit) (some_symbol : line ≠ []) :
    reads newline limit [] (line ++ rest) = line :: reads newline limit [] rest := by
  rcases List.eq_nil_or_concat line with nil | ⟨start, last, rfl⟩
  · exact absurd nil some_symbol
  · rw [List.concat_eq_append] at plain full ⊢
    have size : start.length + 1 = limit := by simpa using full
    rw [List.append_assoc, reads_symbols (fun member => plain (List.mem_append_left _ member))
      (by simp only [List.length_nil]; omega)]
    simp [reads, size]

/-- **Finished strings are read back, whatever follows.** -/
theorem reads_finished (finished : ∀ string ∈ strings, Finished newline limit string) (rest : List α) :
    reads newline limit [] (strings.flatten ++ rest) = strings ++ reads newline limit [] rest := by
  induction strings with
  | nil => rfl
  | cons string others ih =>
    obtain ⟨line, rfl, plain, short⟩ := finished string List.mem_cons_self
    have later := ih fun other member => finished other (List.mem_cons_of_mem _ member)
    rw [List.flatten_cons, List.append_assoc, List.append_assoc, List.singleton_append,
      reads_line plain short, later, List.cons_append]

/-- **Strings read from short lines are read back.** -/
theorem Cut.reads_flatten (cut : Cut newline limit strings) :
    reads newline limit [] strings.flatten = strings := by
  rcases cut.finished_or with finished | ⟨start, last, rfl, before, unfinished⟩
  · have whole := reads_finished finished []
    rw [List.append_nil, reads_nil, List.append_nil] at whole
    exact whole
  · rw [List.flatten_append, reads_finished before]
    simp only [List.flatten_cons, List.flatten_nil, List.append_nil]
    rw [reads_last unfinished]

/-- What is read is there. -/
theorem mem_of_reads {string : List α} {symbol : α} (stream : List α)
    (member : string ∈ reads newline limit pending stream) (inside : symbol ∈ string) :
    symbol ∈ pending ∨ symbol ∈ stream := by
  induction stream generalizing pending with
  | nil =>
    unfold reads at member
    split at member
    · exact absurd member List.not_mem_nil
    · exact .inl (List.mem_singleton.mp member ▸ inside)
  | cons next rest ih =>
    unfold reads at member
    split at member
    · rcases List.mem_cons.mp member with rfl | later
      · rcases List.mem_append.mp inside with before | last
        · exact .inl before
        · exact .inr (List.mem_singleton.mp last ▸ List.mem_cons_self)
      · rcases ih later with none | found
        · exact absurd none List.not_mem_nil
        · exact .inr (List.mem_cons_of_mem _ found)
    · rcases ih member with before | found
      · rcases List.mem_append.mp before with pending | last
        · exact .inl pending
        · exact .inr (List.mem_singleton.mp last ▸ List.mem_cons_self)
      · exact .inr (List.mem_cons_of_mem _ found)

/-- No string is empty. -/
theorem ne_nil_of_reads {string : List α} (stream : List α)
    (member : string ∈ reads newline limit pending stream) : string ≠ [] := by
  induction stream generalizing pending with
  | nil =>
    unfold reads at member
    split at member
    · exact absurd member List.not_mem_nil
    · rename_i some_symbol
      exact List.mem_singleton.mp member ▸ some_symbol
  | cons next rest ih =>
    unfold reads at member
    split at member
    · rcases List.mem_cons.mp member with rfl | later
      · exact List.append_ne_nil_of_right_ne_nil pending (List.cons_ne_nil next [])
      · exact ih later
    · exact ih member

/-- What has been read of a string begins it. -/
theorem reads_pending (some_symbol : pending ≠ []) (stream : List α) :
    ∃ string others, reads newline limit pending stream = (pending ++ string) :: others := by
  induction stream generalizing pending with
  | nil => exact ⟨[], [], by simp [reads, some_symbol]⟩
  | cons symbol rest ih =>
    unfold reads
    split
    · exact ⟨[symbol], _, rfl⟩
    · have some_symbol : pending ++ [symbol] ≠ [] :=
        List.append_ne_nil_of_right_ne_nil pending (List.cons_ne_nil symbol [])
      obtain ⟨string, others, eq⟩ := ih some_symbol
      exact ⟨symbol :: string, others, by rw [eq, List.append_assoc, List.singleton_append]⟩

/-- The first string begins with the first symbol. -/
theorem reads_head (symbol : α) (stream : List α) :
    ∃ string others, reads newline limit [] (symbol :: stream) = (symbol :: string) :: others := by
  unfold reads
  split
  · exact ⟨[], _, rfl⟩
  · exact reads_pending (by simp) stream

end Reads

end Baps.Text
