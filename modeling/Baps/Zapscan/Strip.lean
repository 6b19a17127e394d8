/-
**`strip_lines`: take out the lines that zapscan has put in.**

The file is copied line by line, one line behind: a line that begins with one of two texts is left out,
and so is the line before it if that is empty. Lines come from `fgets` into 255 bytes and go out with
`fputs`, so a longer line is several strings and a NUL byte ends one.

* `kept hit strings` — **the strings that stay**, without the look-behind: `stripFrom_eq`.
* `Conf` — a file of short lines, the last with or without its newline; `stripLines_flatten` says what
  is left of it.
* `stripLines_back_iff` — **when stripping takes out just what was written behind a stripped file**.
-/

import Baps.Text.Fgets
import Mathlib.Data.List.TakeWhile

namespace Baps.Zapscan

open Text

/-! ### The code -/

/-- `'\n'`. -/
def newline : UInt8 := 10

/-- A C string. -/
def ascii (string : String) : List UInt8 := string.toList.map fun char => UInt8.ofNat char.toNat

/-- What `fgets` puts into a `char[255]` at most. -/
def lineSize : Nat := 254

/-- The tests of `strip_lines`: `!memcmp(curr_line, text, strlen(text))` for either text. -/
def begins (text1 text2 : List UInt8) (line : List UInt8) : Bool :=
  text1.isPrefixOf line || text2.isPrefixOf line

/-- `fputs`: up to the NUL byte. -/
def fputs (line : List UInt8) : List UInt8 := line.takeWhile (· ≠ 0)

/-- The loop of `strip_lines` with `prev_line`, and the line after it. -/
def stripFrom (hit : List UInt8 → Bool) (prev : List UInt8) : List (List UInt8) → List UInt8
  | [] => fputs prev
  | curr :: rest =>
      if hit curr then
        fputs (if prev.head? = some newline then [] else prev) ++ stripFrom hit [] rest
      else fputs prev ++ stripFrom hit curr rest

/-- `strip_lines`, on the contents of a file. -/
def stripLines (text1 text2 : List UInt8) (file : List UInt8) : List UInt8 :=
  stripFrom (begins text1 text2) [] (reads newline lineSize [] file)

/-! ### The strings that stay -/

/-- The strings that stay. -/
def kept (hit : List UInt8 → Bool) : List (List UInt8) → List (List UInt8)
  | [] => []
  | line :: rest =>
      if hit line then kept hit rest
      else if line.head? = some newline ∧ rest.head?.any hit then kept hit rest
      else line :: kept hit rest

section Kept

variable {hit : List UInt8 → Bool} {line prev : List UInt8} {strings rest : List (List UInt8)}

theorem fputs_eq (noNul : 0 ∉ line) : fputs line = line := by
  unfold fputs
  rw [List.takeWhile_eq_self_iff]
  intro byte member
  have ne : byte ≠ 0 := fun zero => noNul (zero ▸ member)
  simpa using ne

/-- **The loop copies the strings that stay.** -/
theorem stripFrom_eq (prevNoNul : 0 ∉ prev) (noNul : ∀ string ∈ strings, 0 ∉ string) :
    stripFrom hit prev strings =
      (if prev.head? = some newline ∧ strings.head?.any hit then [] else prev) ++
        (kept hit strings).flatten := by
  induction strings generalizing prev with
  | nil => simp [stripFrom, kept, fputs_eq prevNoNul]
  | cons curr rest ih =>
    have later : ∀ string ∈ rest, 0 ∉ string := fun string member =>
      noNul string (List.mem_cons_of_mem _ member)
    unfold stripFrom kept
    by_cases matched : hit curr = true
    · rw [if_pos matched, if_pos matched, ih List.not_mem_nil later]
      by_cases blank : prev.head? = some newline
      · simp [blank, matched, fputs]
      · simp [blank, fputs_eq prevNoNul]
    · rw [if_neg matched, if_neg matched, ih (noNul curr List.mem_cons_self) later]
      simp only [List.head?_cons, Option.any_some, matched, and_false, if_false, fputs_eq prevNoNul,
        Bool.false_eq_true]
      split
      · simp
      · simp

theorem kept_sublist (hit : List UInt8 → Bool) (strings : List (List UInt8)) :
    (kept hit strings).Sublist strings := by
  induction strings with
  | nil => exact List.Sublist.refl []
  | cons line rest ih =>
    unfold kept
    split
    · exact ih.cons line
    · split
      · exact ih.cons line
      · exact ih.cons_cons line

/-- None of them begins with a text. -/
theorem kept_free : ∀ line ∈ kept hit strings, hit line = false := by
  induction strings with
  | nil => exact fun line member => absurd member List.not_mem_nil
  | cons line rest ih =>
    unfold kept
    split
    · exact ih
    · rename_i free
      split
      · exact ih
      · intro other member
        rcases List.mem_cons.mp member with rfl | later
        · exact Bool.eq_false_iff.mpr free
        · exact ih other later

/-- Strings without matches stay, before anything that does not begin with a match. -/
theorem kept_append (free : ∀ line ∈ strings, hit line = false) (apart : rest.head?.any hit = false) :
    kept hit (strings ++ rest) = strings ++ kept hit rest := by
  induction strings with
  | nil => rfl
  | cons line others ih =>
    have here : ¬ hit line = true := by
      rw [free line List.mem_cons_self]
      decide
    have next : (others ++ rest).head?.any hit = false := by
      cases others with
      | nil => exact apart
      | cons other more =>
        exact free other (List.mem_cons_of_mem _ List.mem_cons_self)
    have stays : ¬ (line.head? = some newline ∧ (others ++ rest).head?.any hit = true) := by
      rw [next]
      exact fun both => Bool.false_ne_true both.2
    rw [List.cons_append, kept, if_neg here, if_neg stays,
      ih fun other member => free other (List.mem_cons_of_mem _ member), List.cons_append]

theorem kept_of_free (free : ∀ line ∈ strings, hit line = false) : kept hit strings = strings := by
  have whole : kept hit (strings ++ []) = strings ++ kept hit [] := kept_append free rfl
  rw [List.append_nil] at whole
  rw [whole]
  exact List.append_nil strings

/-- A line that does not match and is not empty stays. -/
theorem kept_cons (free : hit line = false) (notBlank : line.head? ≠ some newline) :
    kept hit (line :: rest) = line :: kept hit rest := by
  rw [kept, if_neg (by rw [free]; decide), if_neg fun both => notBlank both.1]

theorem kept_hit (matched : hit line = true) : kept hit (line :: rest) = kept hit rest := by
  rw [kept, if_pos matched]

/-- An empty line goes with the match behind it. -/
theorem kept_blank (free : hit [newline] = false) (next : rest.head?.any hit = true) :
    kept hit ([newline] :: rest) = kept hit rest := by
  rw [kept, if_neg (by rw [free]; decide), if_pos ⟨rfl, next⟩]

/-- When nothing stays behind an empty line. -/
theorem kept_blank_nil (free : hit [newline] = false) :
    kept hit ([newline] :: rest) = [] ↔ rest.head?.any hit = true ∧ kept hit rest = [] := by
  by_cases next : rest.head?.any hit = true
  · rw [kept_blank free next]
    simp [next]
  · rw [kept, if_neg (by rw [free]; decide), if_neg fun both => next both.2]
    simp [next]

/-- Only matches and empty lines go. -/
theorem mem_kept (member : line ∈ strings) (free : hit line = false)
    (notBlank : line.head? ≠ some newline) : line ∈ kept hit strings := by
  induction strings with
  | nil => exact absurd member List.not_mem_nil
  | cons first rest ih =>
    rcases List.mem_cons.mp member with rfl | later
    · rw [kept_cons free notBlank]
      exact List.mem_cons_self
    · unfold kept
      split
      · exact ih later
      · split
        · exact ih later
        · exact List.mem_cons_of_mem _ (ih later)

end Kept

/-! ### Texts -/

/-- The texts of a call: neither is empty or has a newline. -/
structure Texts (text1 text2 : List UInt8) : Prop where
  plain1 : newline ∉ text1
  plain2 : newline ∉ text2
  nonempty1 : text1 ≠ []
  nonempty2 : text2 ≠ []

section Texts

variable {text text1 text2 line : List UInt8}

theorem prefix_newline (plain : newline ∉ text) : text <+: line ++ [newline] ↔ text <+: line := by
  constructor
  · intro begins
    rcases List.prefix_concat_iff.mp begins with whole | inside
    · exact absurd (whole ▸ List.mem_append_right line (List.mem_singleton.mpr rfl)) plain
    · exact inside
  · intro inside
    exact inside.trans (List.prefix_append line [newline])

/-- The newline is no part of a match. -/
theorem begins_newline (texts : Texts text1 text2) (line : List UInt8) :
    begins text1 text2 (line ++ [newline]) = begins text1 text2 line := by
  unfold begins
  rw [Bool.eq_iff_iff]
  simp only [Bool.or_eq_true, List.isPrefixOf_iff_prefix, prefix_newline texts.plain1,
    prefix_newline texts.plain2]

/-- The empty line is no match. -/
theorem begins_blank (texts : Texts text1 text2) : begins text1 text2 [newline] = false := by
  rw [← List.nil_append [newline], begins_newline texts]
  unfold begins
  rw [Bool.eq_false_iff]
  simp [texts.nonempty1, texts.nonempty2]

end Texts

/-! ### Files of short lines -/

/-- A line: fewer than 254 bytes. -/
structure Line where
  bytes : List UInt8
  short : bytes.length < lineSize
  plain : newline ∉ bytes
  noNul : 0 ∉ bytes

/-- A file: its lines, and what follows the last newline. -/
structure Conf where
  lines : List Line
  last : Line

/-- The lines of a file, the last without its newline. -/
def Conf.strings (conf : Conf) : List (List UInt8) :=
  conf.lines.map (fun line => line.bytes ++ [newline]) ++
    if conf.last.bytes = [] then [] else [conf.last.bytes]

/-- The contents of a file. -/
def Conf.text (conf : Conf) : List UInt8 := conf.strings.flatten

theorem Conf.text_eq (conf : Conf) : conf.text =
    conf.lines.flatMap (fun line => line.bytes ++ [newline]) ++ conf.last.bytes := by
  unfold Conf.text Conf.strings
  rw [List.flatten_append, List.flatMap]
  split
  · rename_i empty
    rw [empty]
    rfl
  · simp

/-- **Every text of short lines is the contents of such a file**: without NUL bytes, and without 254 bytes
in a row none of which is a newline. -/
theorem Conf.exists_text (bytes : List UInt8) (noNul : 0 ∉ bytes)
    (short : ∀ before line behind, bytes = before ++ (line ++ behind) → newline ∉ line →
      line.length < lineSize) : ∃ conf : Conf, conf.text = bytes := by
  induction bytes with
  | nil => exact ⟨⟨[], ⟨[], by decide, List.not_mem_nil, List.not_mem_nil⟩⟩, rfl⟩
  | cons byte rest ih =>
    rw [List.mem_cons, not_or] at noNul
    have shorter : ∀ before line behind, rest = before ++ (line ++ behind) → newline ∉ line →
        line.length < lineSize := fun before line behind split =>
      short (byte :: before) line behind (by rw [split, List.cons_append])
    obtain ⟨⟨lines, last⟩, eq⟩ := ih noNul.2 shorter
    rw [Conf.text_eq] at eq
    by_cases ends : byte = newline
    · refine ⟨⟨⟨[], by decide, List.not_mem_nil, List.not_mem_nil⟩ :: lines, last⟩, ?_⟩
      rw [Conf.text_eq, ends, ← eq]
      rfl
    · have longer : ∀ line : Line, ∀ behind, byte :: rest = (byte :: line.bytes) ++ behind →
          ∃ whole : Line, whole.bytes = byte :: line.bytes := by
        intro line behind split
        have plain : newline ∉ byte :: line.bytes := by
          rw [List.mem_cons, not_or]
          exact ⟨fun same => ends same.symm, line.plain⟩
        have clean : 0 ∉ byte :: line.bytes := by
          rw [List.mem_cons, not_or]
          exact ⟨noNul.1, line.noNul⟩
        exact ⟨⟨byte :: line.bytes, short [] _ behind split plain, plain, clean⟩, rfl⟩
      cases lines with
      | nil =>
        obtain ⟨whole, is⟩ := longer last [] (by rw [← eq]; simp)
        refine ⟨⟨[], whole⟩, ?_⟩
        rw [Conf.text_eq, ← eq, is]
        rfl
      | cons line others =>
        obtain ⟨whole, is⟩ := longer line
          (newline :: (others.flatMap (fun line => line.bytes ++ [newline]) ++ last.bytes))
          (by rw [← eq]; simp)
        refine ⟨⟨whole :: others, last⟩, ?_⟩
        rw [Conf.text_eq, ← eq]
        simp [is]

/-- Strings of short lines, without NUL bytes. -/
structure Plain (strings : List (List UInt8)) : Prop where
  cut : Cut newline lineSize strings
  noNul : ∀ string ∈ strings, 0 ∉ string

section Files

variable {text1 text2 more : List UInt8} {strings : List (List UInt8)} {conf : Conf}

theorem Conf.mem_strings {string : List UInt8} : string ∈ conf.strings ↔
    (∃ line ∈ conf.lines, string = line.bytes ++ [newline]) ∨
      string = conf.last.bytes ∧ conf.last.bytes ≠ [] := by
  unfold Conf.strings
  rw [List.mem_append, List.mem_map]
  refine or_congr ⟨?_, ?_⟩ ?_
  · rintro ⟨line, member, rfl⟩
    exact ⟨line, member, rfl⟩
  · rintro ⟨line, member, rfl⟩
    exact ⟨line, member, rfl⟩
  · split
    · rename_i empty
      simp [empty]
    · rename_i some_byte
      simp [some_byte]

theorem Line.finished (line : Line) : Finished newline lineSize (line.bytes ++ [newline]) :=
  ⟨line.bytes, rfl, line.plain, line.short⟩

theorem Conf.plain (conf : Conf) : Plain conf.strings := by
  refine ⟨⟨fun string member => ?_, ?_⟩, fun string member => ?_⟩
  · rcases Conf.mem_strings.mp member with ⟨line, -, rfl⟩ | ⟨rfl, some_byte⟩
    · exact .inl line.finished
    · exact .inr ⟨some_byte, conf.last.plain, conf.last.short⟩
  · unfold Conf.strings
    refine List.pairwise_append.mpr ⟨?_, ?_, fun string member _ _ => ?_⟩
    · rw [List.pairwise_map]
      exact List.pairwise_of_forall fun line _ => line.finished
    · split
      · exact List.Pairwise.nil
      · exact List.pairwise_singleton _ _
    · obtain ⟨line, -, rfl⟩ := List.mem_map.mp member
      exact line.finished
  · rcases Conf.mem_strings.mp member with ⟨line, -, rfl⟩ | ⟨rfl, -⟩
    · rw [List.mem_append, not_or]
      exact ⟨line.noNul, by decide⟩
    · exact conf.last.noNul

/-- A file ends with a newline, or with a match. -/
def Conf.Ends (hit : List UInt8 → Bool) (conf : Conf) : Prop :=
  conf.last.bytes = [] ∨ hit conf.last.bytes = true

/-- **When what stays of a file ends with a newline.** -/
theorem Conf.ends_iff {hit : List UInt8 → Bool} (sub : strings.Sublist conf.strings)
    (free : ∀ string ∈ strings, hit string = false)
    (stays : ∀ string ∈ conf.strings, hit string = false → string.head? ≠ some newline →
      string ∈ strings) :
    (∀ string ∈ strings, Finished newline lineSize string) ↔ conf.Ends hit := by
  have unfinished (some_byte : conf.last.bytes ≠ []) : Unfinished newline lineSize conf.last.bytes :=
    ⟨some_byte, conf.last.plain, conf.last.short⟩
  constructor
  · intro finished
    by_contra neither
    obtain ⟨some_byte, noMatch⟩ := not_or.mp neither
    have notBlank : conf.last.bytes.head? ≠ some newline := fun head =>
      conf.last.plain (List.mem_of_head? head)
    have inside := stays conf.last.bytes (Conf.mem_strings.mpr (.inr ⟨rfl, some_byte⟩))
      (Bool.eq_false_iff.mpr noMatch) notBlank
    exact (unfinished some_byte).not_finished (finished _ inside)
  · intro ends string member
    rcases Conf.mem_strings.mp (sub.subset member) with ⟨line, -, rfl⟩ | ⟨rfl, some_byte⟩
    · exact line.finished
    · rcases ends with empty | matched
      · exact absurd empty some_byte
      · exact absurd (free _ member) (by rw [matched]; decide)

theorem reads_blank (more : List UInt8) :
    reads newline lineSize [] (newline :: more) = [newline] :: reads newline lineSize [] more :=
  reads_line List.not_mem_nil (by decide)

theorem Plain.kept (plain : Plain strings) (hit : List UInt8 → Bool) : Plain (kept hit strings) :=
  ⟨plain.cut.sublist (kept_sublist hit strings),
    fun string member => plain.noNul string ((kept_sublist hit strings).subset member)⟩

/-- **What is left of a file.** -/
theorem stripLines_flatten (plain : Plain strings) :
    stripLines text1 text2 strings.flatten = (kept (begins text1 text2) strings).flatten := by
  unfold stripLines
  rw [plain.cut.reads_flatten, stripFrom_eq List.not_mem_nil plain.noNul]
  simp

theorem reads_noNul (moreNoNul : 0 ∉ more) :
    ∀ string ∈ reads newline lineSize [] more, 0 ∉ string := by
  intro string member inside
  rcases mem_of_reads more member inside with none | found
  · exact absurd none List.not_mem_nil
  · exact moreNoNul found

/-- **What is left of a file that ends with a newline, with more behind it.** -/
theorem stripLines_behind (noNul : ∀ string ∈ strings, 0 ∉ string)
    (finished : ∀ string ∈ strings, Finished newline lineSize string) (moreNoNul : 0 ∉ more) :
    stripLines text1 text2 (strings.flatten ++ more) =
      (kept (begins text1 text2) (strings ++ reads newline lineSize [] more)).flatten := by
  have clean : ∀ string ∈ strings ++ reads newline lineSize [] more, 0 ∉ string := by
    intro string member
    rcases List.mem_append.mp member with before | behind
    · exact noNul string before
    · exact reads_noNul moreNoNul string behind
  unfold stripLines
  rw [reads_finished finished, stripFrom_eq List.not_mem_nil clean]
  simp

/-- **The last line of a file without a newline gets it for good** from what is written behind it. -/
theorem stripLines_unfinished (texts : Texts text1 text2) (plain : Plain strings)
    (free : ∀ string ∈ strings, begins text1 text2 string = false)
    (unfinished : ¬ ∀ string ∈ strings, Finished newline lineSize string) (moreNoNul : 0 ∉ more) :
    ∃ rest, stripLines text1 text2 (strings.flatten ++ newline :: more) =
      strings.flatten ++ newline :: rest ∧ 0 ∉ rest := by
  rcases plain.cut.finished_or with finished | ⟨start, last, rfl, before, open_⟩
  · exact absurd finished unfinished
  have lastMem : last ∈ start ++ [last] := List.mem_append_right start (List.mem_singleton.mpr rfl)
  have startMem : ∀ string ∈ start, string ∈ start ++ [last] := fun string member =>
    List.mem_append_left [last] member
  have closed : (start ++ [last]).flatten ++ newline :: more =
      (start ++ [last ++ [newline]]).flatten ++ more := by simp
  have lastFree : begins text1 text2 (last ++ [newline]) = false := by
    rw [begins_newline texts]
    exact free last lastMem
  have notBlank : (last ++ [newline]).head? ≠ some newline := by
    rw [List.head?_append_of_ne_nil _ open_.1]
    exact fun head => open_.2.1 (List.mem_of_head? head)
  rw [closed, stripLines_behind ?clean ?finished moreNoNul, List.append_assoc, List.singleton_append,
    kept_append (fun string member => free string (startMem string member)) (by simpa using lastFree),
    kept_cons lastFree notBlank]
  case clean =>
    intro string member
    rcases List.mem_append.mp member with early | late
    · exact plain.noNul string (startMem string early)
    · rw [List.mem_singleton.mp late, List.mem_append, not_or]
      exact ⟨plain.noNul last lastMem, by decide⟩
  case finished =>
    intro string member
    rcases List.mem_append.mp member with early | late
    · exact before string early
    · exact List.mem_singleton.mp late ▸ ⟨last, rfl, open_.2.1, open_.2.2⟩
  refine ⟨(kept (begins text1 text2) (reads newline lineSize [] more)).flatten, by simp, ?_⟩
  intro zero
  obtain ⟨string, member, inside⟩ := List.mem_flatten.mp zero
  exact reads_noNul moreNoNul string ((kept_sublist _ _).subset member) inside

/-- **When stripping takes out just what was written behind a stripped file**: the file ends with a
newline, and what was written opens with a match and has only matches. -/
theorem stripLines_back_iff (texts : Texts text1 text2) (plain : Plain strings)
    (free : ∀ string ∈ strings, begins text1 text2 string = false) (moreNoNul : 0 ∉ more) :
    stripLines text1 text2 (strings.flatten ++ newline :: more) = strings.flatten ↔
      (∀ string ∈ strings, Finished newline lineSize string) ∧
        (reads newline lineSize [] more).head?.any (begins text1 text2) = true ∧
        kept (begins text1 text2) (reads newline lineSize [] more) = [] := by
  by_cases finished : ∀ string ∈ strings, Finished newline lineSize string
  · have free0 := begins_blank texts
    have nonempty : ∀ string ∈ kept (begins text1 text2) ([newline] :: reads newline lineSize [] more),
        string ≠ [] := by
      intro string member
      rw [← reads_blank] at member
      exact ne_nil_of_reads _ ((kept_sublist _ _).subset member)
    rw [stripLines_behind plain.noNul finished (by simpa [newline] using moreNoNul), reads_blank,
      kept_append free (by simpa using free0), List.flatten_append, List.append_right_eq_self,
      List.flatten_eq_nil_iff, ← kept_blank_nil free0]
    constructor
    · intro empty
      refine ⟨finished, List.eq_nil_iff_forall_not_mem.mpr fun string member => ?_⟩
      exact nonempty string member (empty string member)
    · rintro ⟨-, none⟩ string member
      rw [none] at member
      exact absurd member List.not_mem_nil
  · obtain ⟨rest, eq, -⟩ := stripLines_unfinished texts plain free finished moreNoNul
    rw [eq]
    simp [finished]

end Files

/-! ### Matches as they are read -/

section Matches

variable {hit : List UInt8 → Bool} {row more : List UInt8}

/-- A match that fits. -/
theorem kept_short (plain : newline ∉ row) (short : row.length < lineSize)
    (matched : hit (row ++ [newline]) = true) :
    kept hit (reads newline lineSize [] (row ++ newline :: more)) =
      kept hit (reads newline lineSize [] more) := by
  rw [reads_line plain short, kept_hit matched]

/-- A match that leaves no room for its newline. -/
theorem kept_full (plain : newline ∉ row) (full : row.length = lineSize) (matched : hit row = true) :
    kept hit (reads newline lineSize [] (row ++ newline :: more)) =
      kept hit ([newline] :: reads newline lineSize [] more) := by
  have some_byte : row ≠ [] := by
    intro nil
    rw [nil] at full
    exact absurd full (by decide)
  rw [reads_full plain full some_byte, kept_hit matched, reads_blank]

/-- **A match that does not fit leaves its end behind.** -/
theorem kept_long (plain : newline ∉ row) (long : lineSize < row.length)
    (matched : hit (row.take lineSize) = true)
    (apart : ∀ byte ∈ row.drop lineSize, ∀ string, hit (byte :: string) = false) :
    kept hit (reads newline lineSize [] (row ++ newline :: more)) ≠ [] := by
  have split : row ++ newline :: more = row.take lineSize ++ (row.drop lineSize ++ newline :: more) := by
    rw [← List.append_assoc, List.take_append_drop]
  have size : (row.take lineSize).length = lineSize := by
    rw [List.length_take]
    omega
  cases tail : row.drop lineSize with
  | nil =>
    have none := List.drop_eq_nil_iff.mp tail
    omega
  | cons byte others =>
    have inRow : byte ∈ row := List.mem_of_mem_drop (tail ▸ List.mem_cons_self)
    have notBlank : byte ≠ newline := fun same => plain (same ▸ inRow)
    obtain ⟨string, strings, eq⟩ := @reads_head _ newline lineSize _ byte (others ++ newline :: more)
    have some_byte : row.take lineSize ≠ [] := fun nil => by
      rw [nil] at size
      exact absurd size (by decide)
    rw [split, reads_full (fun member => plain (List.mem_of_mem_take member)) size some_byte,
      kept_hit matched, tail, List.cons_append, eq,
      kept_cons (apart byte (tail ▸ List.mem_cons_self) string) (by simpa using notBlank)]
    exact List.cons_ne_nil _ _

end Matches

end Baps.Zapscan
