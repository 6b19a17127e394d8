/-
**`strip_lines` on lines of any length.**

A line that does not fit into the buffer is several strings, and each is tested like a line: the end of
a line that goes may stay, a string inside a line that stays may go, and the newline of a line that fills
its strings is a string of its own, which is an empty line to the look-behind.

* `wanted` — **the lines that should stay**, of lines that are not cut.
* `Uniform` — every string of a line is a match just when the line is.
* `Balanced` — newlines that are strings of their own are neither left over nor lost.
* `kept_pieces_iff` — **the strings that stay are those of the wanted lines just when both hold**.
* `strip_removes_iff` — what that says about the file; `stringsFit_short` — short lines are safe.
-/

import Baps.Text.Pieces
import Baps.Zapscan.Strip
import Mathlib.Data.List.Flatten

namespace Baps.Zapscan

open Text

/-! ### Lines and their strings -/

/-- The lines of a file, of any length: each with its newline, if it has one. -/
def fileLines (file : List UInt8) : List (List UInt8) := whole newline [] file

/-- The strings that `fgets` returns for a line. -/
def pieces (line : List UInt8) : List (List UInt8) := reads newline lineSize [] line

/-- The lines that should stay: neither a match nor an empty line before one. -/
def wanted (hit : List UInt8 → Bool) : List (List UInt8) → List (List UInt8)
  | [] => []
  | line :: rest =>
      if hit line ∨ (line = [newline] ∧ rest.head?.any hit) then wanted hit rest
      else line :: wanted hit rest

/-- Every string of the line is tested like the line, its newline apart. -/
def Uniform (hit : List UInt8 → Bool) (line : List UInt8) : Prop :=
  ∀ piece ∈ pieces line, piece ≠ [newline] → hit piece = hit line

/-- Newlines by themselves come out even. `owed` says that a line which stays has lost its newline to the
match behind it; a match leaves one when no match follows. -/
def Balanced (hit : List UInt8 → Bool) (owed : Bool) : List (List UInt8) → Prop
  | [] => owed = false
  | line :: rest =>
      if hit line then
        if Fills newline lineSize line ∧ ¬ rest.head?.any hit then owed = true ∧ Balanced hit false rest
        else Balanced hit owed rest
      else if line = [newline] then Balanced hit owed rest
      else owed = false ∧ Balanced hit (decide (Fills newline lineSize line ∧ rest.head?.any hit)) rest

instance (hit : List UInt8 → Bool) (line : List UInt8) : Decidable (Uniform hit line) :=
  inferInstanceAs (Decidable (∀ piece ∈ pieces line, piece ≠ [newline] → hit piece = hit line))

/-- The strings of a line that is not empty: `body`, and its newline if it fills them. -/
structure Body (line : List UInt8) (body : List (List UInt8)) : Prop where
  eq : pieces line = body ++ if Fills newline lineSize line then [[newline]] else []
  heads : ∀ piece ∈ body, piece.head? ≠ some newline
  nonempty : body ≠ []

section Lines

variable {hit : List UInt8 → Bool} {line : List UInt8} {body strings lines rest : List (List UInt8)}

theorem exists_body (ended : Ended newline line) (notBlank : line ≠ [newline]) :
    ∃ body, Body line body := by
  have positive : 0 < lineSize := by decide
  obtain ⟨body, eq, heads, nonempty⟩ := reads_ended positive ended notBlank
  exact ⟨body, eq, heads, nonempty⟩

theorem pieces_blank : pieces [newline] = [[newline]] := rfl

theorem Body.ne_newline (split : Body line body) : ∀ piece ∈ body, piece ≠ [newline] := by
  rintro piece member rfl
  exact split.heads _ member rfl

theorem Body.mem (split : Body line body) : ∀ piece ∈ body, piece ∈ pieces line := by
  intro piece member
  rw [split.eq]
  exact List.mem_append_left _ member

/-- A line that is not empty does not open with a newline. -/
theorem Body.opens (split : Body line body) : ∃ piece more, body = piece :: more ∧ piece ≠ [newline] := by
  obtain ⟨piece, more, rfl⟩ := List.exists_cons_of_ne_nil split.nonempty
  exact ⟨piece, more, rfl, split.ne_newline piece List.mem_cons_self⟩

theorem Body.hit_eq (split : Body line body) (uniform : Uniform hit line) :
    ∀ piece ∈ body, hit piece = hit line := fun piece member =>
  uniform piece (split.mem piece member) (split.ne_newline piece member)

/-! ### Strings one line at a time -/

/-- The strings of a match go. -/
theorem kept_hits (matched : ∀ piece ∈ body, hit piece = true) :
    kept hit (body ++ rest) = kept hit rest := by
  induction body with
  | nil => rfl
  | cons piece more ih =>
    rw [List.cons_append, kept_hit (matched piece List.mem_cons_self),
      ih fun other member => matched other (List.mem_cons_of_mem _ member)]

/-- The strings of a line that is no match stay, its newline apart. -/
theorem kept_heads (free : ∀ piece ∈ body, hit piece = false)
    (heads : ∀ piece ∈ body, piece.head? ≠ some newline) :
    kept hit (body ++ rest) = body ++ kept hit rest := by
  induction body with
  | nil => rfl
  | cons piece more ih =>
    rw [List.cons_append, kept_cons (free piece List.mem_cons_self) (heads piece List.mem_cons_self),
      ih (fun other member => free other (List.mem_cons_of_mem _ member))
        fun other member => heads other (List.mem_cons_of_mem _ member)]
    rfl

/-- A newline stays unless a match follows. -/
theorem kept_bare (blankFree : hit [newline] = false) :
    kept hit ([newline] :: rest) =
      (if rest.head?.any hit = true then [] else [[newline]]) ++ kept hit rest := by
  by_cases next : rest.head?.any hit = true
  · rw [kept_blank blankFree next, if_pos next, List.nil_append]
  · rw [kept, if_neg (by rw [blankFree]; decide), if_neg fun both => next both.2, if_neg next]
    rfl

theorem kept_tail (blankFree : hit [newline] = false) :
    kept hit ((if Fills newline lineSize line then [[newline]] else []) ++ rest) =
      (if Fills newline lineSize line ∧ ¬ rest.head?.any hit = true then [[newline]] else []) ++
        kept hit rest := by
  by_cases fills : Fills newline lineSize line
  · rw [if_pos fills, List.singleton_append, kept_bare blankFree]
    by_cases next : rest.head?.any hit = true
    · rw [if_pos next, if_neg fun both => both.2 next]
    · rw [if_neg next, if_pos ⟨fills, next⟩]
  · rw [if_neg fills, if_neg fun both => fills both.1, List.nil_append, List.nil_append]

/-- **A match leaves at most its newline.** -/
theorem kept_line_hit (blankFree : hit [newline] = false) (split : Body line body)
    (uniform : Uniform hit line) (matched : hit line = true) :
    kept hit (pieces line ++ rest) =
      (if Fills newline lineSize line ∧ ¬ rest.head?.any hit = true then [[newline]] else []) ++
        kept hit rest := by
  have all : ∀ piece ∈ body, hit piece = true := fun piece member =>
    (split.hit_eq uniform piece member).trans matched
  rw [split.eq, List.append_assoc, kept_hits all, kept_tail blankFree]

/-- **A line that stays loses at most its newline.** -/
theorem kept_line_free (blankFree : hit [newline] = false) (split : Body line body)
    (uniform : Uniform hit line) (free : hit line = false) :
    kept hit (pieces line ++ rest) = body ++
      ((if Fills newline lineSize line ∧ ¬ rest.head?.any hit = true then [[newline]] else []) ++
        kept hit rest) := by
  have all : ∀ piece ∈ body, hit piece = false := fun piece member =>
    (split.hit_eq uniform piece member).trans free
  rw [split.eq, List.append_assoc, kept_heads all split.heads, kept_tail blankFree]

/-- A match follows just when a matching string does. -/
theorem next_hit (ended : ∀ line ∈ lines, Ended newline line)
    (uniform : ∀ line ∈ lines, Uniform hit line) :
    (lines.flatMap pieces).head?.any hit = lines.head?.any hit := by
  cases lines with
  | nil => rfl
  | cons line rest =>
    by_cases blank : line = [newline]
    · rw [blank, List.flatMap_cons, pieces_blank]
      rfl
    · obtain ⟨body, split⟩ := exists_body (ended line List.mem_cons_self) blank
      obtain ⟨piece, more, rfl, -⟩ := split.opens
      rw [List.flatMap_cons, split.eq]
      exact split.hit_eq (uniform line List.mem_cons_self) piece List.mem_cons_self

/-! ### Lines that should stay -/

theorem wanted_hit (matched : hit line = true) : wanted hit (line :: rest) = wanted hit rest := by
  rw [wanted, if_pos (.inl matched)]

theorem wanted_blank (blankFree : hit [newline] = false) :
    wanted hit ([newline] :: rest) =
      (if rest.head?.any hit = true then [] else [[newline]]) ++ wanted hit rest := by
  by_cases next : rest.head?.any hit = true
  · rw [wanted, if_pos (.inr ⟨rfl, next⟩), if_pos next, List.nil_append]
  · have stays : ¬ (hit [newline] = true ∨ [newline] = [newline] ∧ rest.head?.any hit = true) := by
      rw [blankFree]
      simpa using next
    rw [wanted, if_neg stays, if_neg next]
    rfl

theorem wanted_free (free : hit line = false) (notBlank : line ≠ [newline]) :
    wanted hit (line :: rest) = line :: wanted hit rest := by
  have stays : ¬ (hit line = true ∨ line = [newline] ∧ rest.head?.any hit = true) := by
    rw [free]
    simpa using fun blank => absurd blank notBlank
  rw [wanted, if_neg stays]

theorem wanted_sublist (hit : List UInt8 → Bool) (lines : List (List UInt8)) :
    (wanted hit lines).Sublist lines := by
  induction lines with
  | nil => exact List.Sublist.refl []
  | cons line rest ih =>
    unfold wanted
    split
    · exact ih.cons line
    · exact ih.cons_cons line

theorem mem_wanted (member : line ∈ lines) (free : hit line = false) (notBlank : line ≠ [newline]) :
    line ∈ wanted hit lines := by
  induction lines with
  | nil => exact absurd member List.not_mem_nil
  | cons first rest ih =>
    rcases List.mem_cons.mp member with rfl | later
    · rw [wanted_free free notBlank]
      exact List.mem_cons_self
    · unfold wanted
      split
      · exact ih later
      · exact List.mem_cons_of_mem _ (ih later)

/-! ### Strings that are tested like their line -/

/-- A string that stays for good: no match, and not a newline by itself. -/
def Stray (hit : List UInt8 → Bool) (piece : List UInt8) : Bool :=
  !hit piece && decide (piece.head? ≠ some newline)

theorem countP_kept (hit : List UInt8 → Bool) (strings : List (List UInt8)) :
    (kept hit strings).countP (Stray hit) = strings.countP (Stray hit) := by
  induction strings with
  | nil => rfl
  | cons string rest ih =>
    unfold kept
    split
    · rename_i matched
      rw [ih, List.countP_cons_of_neg (by simp [Stray, matched])]
    · split
      · rename_i blank
        rw [ih, List.countP_cons_of_neg (by simp [Stray, blank.1])]
      · rw [List.countP_cons, List.countP_cons, ih]

/-- When as many stay as should, a match has none. -/
theorem countP_wanted
    (same : (lines.flatMap pieces).countP (Stray hit) =
      ((wanted hit lines).flatMap pieces).countP (Stray hit)) :
    ∀ line ∈ lines, hit line = true → (pieces line).countP (Stray hit) = 0 := by
  induction lines with
  | nil => exact fun line member => absurd member List.not_mem_nil
  | cons first rest ih =>
    have fewer : ((wanted hit rest).flatMap pieces).countP (Stray hit) ≤
        (rest.flatMap pieces).countP (Stray hit) :=
      ((wanted_sublist hit rest).flatMap pieces).countP_le
    rw [List.flatMap_cons, List.countP_append] at same
    unfold wanted at same
    split at same
    · have later := ih (by omega)
      intro line member matched
      rcases List.mem_cons.mp member with rfl | inRest
      · omega
      · exact later line inRest matched
    · rename_i stays
      rw [List.flatMap_cons, List.countP_append] at same
      have later := ih (by omega)
      intro line member matched
      rcases List.mem_cons.mp member with rfl | inRest
      · exact absurd (.inl matched) stays
      · exact later line inRest matched

/-- **The strings of the wanted lines stay only if every string is tested like its line.** -/
theorem uniform_of_eq (ended : ∀ line ∈ lines, Ended newline line)
    (same : kept hit (lines.flatMap pieces) = (wanted hit lines).flatMap pieces) :
    ∀ line ∈ lines, Uniform hit line := by
  have counts : (lines.flatMap pieces).countP (Stray hit) =
      ((wanted hit lines).flatMap pieces).countP (Stray hit) := by
    rw [← same, countP_kept]
  intro line member piece inLine notNewline
  by_cases blank : line = [newline]
  · rw [blank, pieces_blank] at inLine
    exact absurd (List.mem_singleton.mp inLine) notNewline
  · obtain ⟨body, split⟩ := exists_body (ended line member) blank
    have head : piece.head? ≠ some newline := by
      rw [split.eq] at inLine
      rcases List.mem_append.mp inLine with inBody | inTail
      · exact split.heads piece inBody
      · split at inTail
        · exact absurd (List.mem_singleton.mp inTail) notNewline
        · exact absurd inTail List.not_mem_nil
    cases matched : hit line with
    | true =>
      have none := List.countP_eq_zero.mp (countP_wanted counts line member matched) piece inLine
      simpa [Stray, head] using none
    | false =>
      -- the line is wanted, so its strings are among those that stay
      have stays : piece ∈ kept hit (lines.flatMap pieces) := by
        rw [same]
        exact List.mem_flatMap_of_mem (mem_wanted member matched blank) inLine
      exact kept_free piece stays

/-! ### Newlines by themselves -/

/-- A newline too many is never made up for. -/
theorem surplus_ne (blankFree : hit [newline] = false) (ended : ∀ line ∈ lines, Ended newline line)
    (uniform : ∀ line ∈ lines, Uniform hit line) (spare : Nat) :
    List.replicate (spare + 1) [newline] ++ kept hit (lines.flatMap pieces) ≠
      (wanted hit lines).flatMap pieces := by
  induction lines generalizing spare with
  | nil => simp [wanted]
  | cons line rest ih =>
    obtain ⟨endedHere, endedRest⟩ := List.forall_mem_cons.mp ended
    obtain ⟨uniformHere, uniformRest⟩ := List.forall_mem_cons.mp uniform
    have later := ih endedRest uniformRest
    by_cases blank : line = [newline]
    · rw [blank, List.flatMap_cons, pieces_blank, List.singleton_append, kept_bare blankFree,
        next_hit endedRest uniformRest, wanted_blank blankFree, List.flatMap_append]
      split
      · exact later spare
      · intro same
        rw [← List.append_assoc, ← List.replicate_succ', List.replicate_succ, List.cons_append,
          List.flatMap_singleton, pieces_blank, List.singleton_append, List.cons_inj_right] at same
        exact later spare same
    · obtain ⟨body, split⟩ := exists_body endedHere blank
      rw [List.flatMap_cons]
      cases matched : hit line with
      | true =>
        rw [kept_line_hit blankFree split uniformHere matched,
          wanted_hit matched]
        split
        · rw [← List.append_assoc, ← List.replicate_succ']
          exact later (spare + 1)
        · exact later spare
      | false =>
        rw [wanted_free matched blank, List.flatMap_cons, split.eq]
        -- a line that stays does not open with a newline
        obtain ⟨piece, more, rfl, other⟩ := split.opens
        intro same
        rw [List.replicate_succ, List.cons_append, List.cons_append, List.cons_append] at same
        exact other (List.cons.inj same).1.symm

/-- What stays is what should, and a newline before it if one is owed. -/
def Settles (hit : List UInt8 → Bool) (owed : Bool) (lines : List (List UInt8)) : Prop :=
  kept hit (lines.flatMap pieces) =
    (if owed then [[newline]] else []) ++ (wanted hit lines).flatMap pieces

/-- An empty line stays or goes in either. -/
theorem settles_blank (blankFree : hit [newline] = false) (ended : ∀ line ∈ rest, Ended newline line)
    (uniform : ∀ line ∈ rest, Uniform hit line) (owed : Bool) :
    Settles hit owed ([newline] :: rest) ↔ Settles hit owed rest := by
  unfold Settles
  rw [List.flatMap_cons, pieces_blank, List.singleton_append, kept_bare blankFree,
    next_hit ended uniform, wanted_blank blankFree, List.flatMap_append]
  split
  · rfl
  · cases owed <;> simp [pieces_blank]

/-- A match leaves nothing, or a newline that must be owed. -/
theorem settles_hit (blankFree : hit [newline] = false) (ended : ∀ line ∈ rest, Ended newline line)
    (uniform : ∀ line ∈ rest, Uniform hit line) (split : Body line body) (here : Uniform hit line)
    (matched : hit line = true) (owed : Bool) :
    Settles hit owed (line :: rest) ↔
      if Fills newline lineSize line ∧ ¬ rest.head?.any hit then owed = true ∧ Settles hit false rest
      else Settles hit owed rest := by
  unfold Settles
  rw [List.flatMap_cons, kept_line_hit blankFree split here matched, next_hit ended uniform,
    wanted_hit matched]
  by_cases leaves : Fills newline lineSize line ∧ ¬ rest.head?.any hit = true
  · rw [if_pos leaves, if_pos leaves]
    cases owed with
    | true => simp
    | false =>
      have surplus := surplus_ne blankFree ended uniform 0
      simpa using surplus
  · rw [if_neg leaves, if_neg leaves, List.nil_append]

/-- A line that stays leaves all of it, or owes its newline. -/
theorem settles_free (blankFree : hit [newline] = false) (ended : ∀ line ∈ rest, Ended newline line)
    (uniform : ∀ line ∈ rest, Uniform hit line) (split : Body line body) (here : Uniform hit line)
    (free : hit line = false) (notBlank : line ≠ [newline]) (owed : Bool) :
    Settles hit owed (line :: rest) ↔
      owed = false ∧ Settles hit (decide (Fills newline lineSize line ∧ rest.head?.any hit)) rest := by
  unfold Settles
  rw [List.flatMap_cons, kept_line_free blankFree split here free, next_hit ended uniform,
    wanted_free free notBlank, List.flatMap_cons, split.eq]
  cases owed with
  | true =>
    obtain ⟨piece, more, rfl, other⟩ := split.opens
    simp [other]
  | false =>
    rw [if_neg Bool.false_ne_true, List.nil_append, List.append_assoc, List.append_cancel_left_eq,
      and_iff_right rfl]
    by_cases fills : Fills newline lineSize line
    · by_cases follows : rest.head?.any hit = true
      · simp [fills, follows]
      · simp [fills, follows]
    · simp [fills]

/-- **Given that, the strings of the wanted lines stay just when newlines come out even.** -/
theorem settles_iff (blankFree : hit [newline] = false) (ended : ∀ line ∈ lines, Ended newline line)
    (uniform : ∀ line ∈ lines, Uniform hit line) (owed : Bool) :
    Settles hit owed lines ↔ Balanced hit owed lines := by
  induction lines generalizing owed with
  | nil => cases owed <;> simp [Settles, kept, wanted, Balanced]
  | cons line rest ih =>
    obtain ⟨endedHere, endedRest⟩ := List.forall_mem_cons.mp ended
    obtain ⟨uniformHere, uniformRest⟩ := List.forall_mem_cons.mp uniform
    have later := ih endedRest uniformRest
    unfold Balanced
    by_cases blank : line = [newline]
    · have notHit : ¬ hit line = true := blank ▸ Bool.eq_false_iff.mp blankFree
      rw [if_neg notHit, if_pos blank, ← later, blank]
      exact settles_blank blankFree endedRest uniformRest owed
    · obtain ⟨body, split⟩ := exists_body endedHere blank
      cases matched : hit line with
      | true =>
        rw [if_pos rfl, ← later, ← later]
        exact settles_hit blankFree endedRest uniformRest split uniformHere matched owed
      | false =>
        rw [if_neg Bool.false_ne_true, if_neg blank, ← later]
        exact settles_free blankFree endedRest uniformRest split uniformHere matched blank owed

/-- **The strings that stay are those of the wanted lines just when** every string is tested like its
line and newlines by themselves come out even. -/
theorem kept_pieces_iff (blankFree : hit [newline] = false)
    (ended : ∀ line ∈ lines, Ended newline line) :
    kept hit (lines.flatMap pieces) = (wanted hit lines).flatMap pieces ↔
      (∀ line ∈ lines, Uniform hit line) ∧ Balanced hit false lines := by
  constructor
  · intro same
    have uniform := uniform_of_eq ended same
    exact ⟨uniform, (settles_iff blankFree ended uniform false).mp same⟩
  · rintro ⟨uniform, balanced⟩
    exact (settles_iff blankFree ended uniform false).mpr balanced

end Lines

/-! ### Files -/

/-- The strings of the file come out as those of the lines that should stay. -/
structure StringsFit (hit : List UInt8 → Bool) (file : List UInt8) : Prop where
  uniform : ∀ line ∈ fileLines file, Uniform hit line
  balanced : Balanced hit false (fileLines file)

section Files

variable {text1 text2 file line : List UInt8} {hit : List UInt8 → Bool} {lines : List (List UInt8)}

theorem fileLines_ended (file : List UInt8) : ∀ line ∈ fileLines file, Ended newline line :=
  whole_ended List.not_mem_nil file

theorem pieces_fileLines (file : List UInt8) :
    (fileLines file).flatMap pieces = reads newline lineSize [] file :=
  reads_whole [] file

theorem flatten_pieces (lines : List (List UInt8)) : (lines.flatMap pieces).flatten = lines.flatten := by
  induction lines with
  | nil => rfl
  | cons line rest ih =>
    rw [List.flatMap_cons, List.flatten_append, ih, List.flatten_cons, pieces, flatten_reads,
      List.nil_append]

theorem stripLines_kept (noNul : 0 ∉ file) :
    stripLines text1 text2 file =
      (kept (begins text1 text2) ((fileLines file).flatMap pieces)).flatten := by
  unfold stripLines
  rw [pieces_fileLines, stripFrom_eq List.not_mem_nil (reads_noNul noNul), List.head?_nil]
  simp

/-- **Bytes come out right just when strings do.** -/
theorem flatten_eq_iff (hit : List UInt8 → Bool) (file : List UInt8) :
    (kept hit ((fileLines file).flatMap pieces)).flatten = (wanted hit (fileLines file)).flatten ↔
      kept hit ((fileLines file).flatMap pieces) = (wanted hit (fileLines file)).flatMap pieces := by
  have pieced : Pieced newline lineSize ((fileLines file).flatMap pieces) := by
    rw [pieces_fileLines]
    exact reads_pieced List.not_mem_nil (by decide) file
  rw [← flatten_pieces (wanted hit (fileLines file))]
  exact (pieced.sublist (kept_sublist hit _)).flatten_inj (by decide)
    (pieced.sublist ((wanted_sublist hit (fileLines file)).flatMap pieces))

/-- **`strip_lines` takes out the lines it should just when the strings fit**: every string of a line is
tested like the line, and newlines by themselves come out even. -/
theorem strip_removes_iff (texts : Texts text1 text2) (noNul : 0 ∉ file) :
    stripLines text1 text2 file = (wanted (begins text1 text2) (fileLines file)).flatten ↔
      StringsFit (begins text1 text2) file := by
  rw [stripLines_kept noNul, flatten_eq_iff,
    kept_pieces_iff (begins_blank texts) (fileLines_ended file)]
  exact ⟨fun both => ⟨both.1, both.2⟩, fun fits => ⟨fits.uniform, fits.balanced⟩⟩

/-- A file of an old line, an empty one and a match. -/
theorem strip_removes_old :
    stripLines (ascii "fxoks=") (ascii "fxsks=") (ascii "loadzone=us\n\nfxoks=1\n") =
        (wanted (begins (ascii "fxoks=") (ascii "fxsks="))
          (fileLines (ascii "loadzone=us\n\nfxoks=1\n"))).flatten ↔
      StringsFit (begins (ascii "fxoks=") (ascii "fxsks=")) (ascii "loadzone=us\n\nfxoks=1\n") :=
  strip_removes_iff ⟨by decide, by decide, by decide, by decide⟩ (by decide)

/-- A match of 260 digits leaves the last 12 behind. -/
theorem strip_leaves_end :
    stripLines (ascii "fxoks=") (ascii "fxsks=")
        (ascii "fxoks=" ++ List.replicate 260 49 ++ [newline]) = List.replicate 12 49 ++ [newline] ∧
      List.replicate 12 49 ++ [newline] ≠ (wanted (begins (ascii "fxoks=") (ascii "fxsks="))
        (fileLines (ascii "fxoks=" ++ List.replicate 260 49 ++ [newline]))).flatten := by
  decide +kernel

/-! ### Short lines -/

theorem pieces_short (ended : Ended newline line) (short : line.length ≤ lineSize) :
    pieces line = [line] := by
  rcases ended with ⟨text, rfl, plain⟩ | ⟨some_byte, plain⟩
  · have fits : text.length < lineSize := by
      rw [List.length_append] at short
      exact short
    exact reads_line plain fits
  · rcases Nat.lt_or_eq_of_le short with fits | full
    · exact reads_last ⟨some_byte, plain, fits⟩
    · have alone : reads newline lineSize [] (line ++ []) = [line] := reads_full plain full some_byte
      rw [List.append_nil] at alone
      exact alone

theorem not_fills_short (short : line.length ≤ lineSize) : ¬ Fills newline lineSize line := by
  rintro ⟨-, two, filled⟩
  rw [Nat.mod_eq_of_lt (by omega)] at filled
  omega

theorem balanced_of_not_fills (none : ∀ line ∈ lines, ¬ Fills newline lineSize line) :
    Balanced hit false lines := by
  induction lines with
  | nil => rfl
  | cons line rest ih =>
    have here := none line List.mem_cons_self
    have later := ih fun other member => none other (List.mem_cons_of_mem _ member)
    unfold Balanced
    split
    · rw [if_neg fun both => here both.1]
      exact later
    · split
      · exact later
      · refine ⟨rfl, ?_⟩
        rw [decide_eq_false fun both => here both.1]
        exact later

/-- **Lines of up to 254 bytes fit**, their newlines included. -/
theorem stringsFit_short (short : ∀ line ∈ fileLines file, line.length ≤ lineSize) : StringsFit hit file := by
  refine ⟨fun line member piece inLine _ => ?_,
    balanced_of_not_fills fun line member => not_fills_short (short line member)⟩
  rw [pieces_short (fileLines_ended file line member) (short line member)] at inLine
  rw [List.mem_singleton.mp inLine]

end Files

end Baps.Zapscan
