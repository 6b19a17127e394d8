/-
**What zapscan has written, read back.**

`main` writes the channels three times: as lists in `zaptel.conf` and `zapata.conf`, with a new line for
every change of the signalling, and as sections in `zapscan.conf`. Each text is read here by a reader of
its own, line by line, that accepts nothing else.

* `parseCsv_csv` — **a list of numbers is read back**.
* `readZaptel_rows`, `readZapata_rows`, `readZapscan_scan` — the three texts.
* `scan_reads_back` — **all three say which channels there are**, in ascending order.
-/

import Baps.Text.Lines
import Baps.Zapscan.Scan

namespace Baps.Zapscan

open Text

/-! ### Numbers and lists -/

/-- A number in decimal digits. -/
def parseDecimal (text : List UInt8) : Option Nat :=
  if text ≠ [] ∧ text.all fun byte => 48 ≤ byte.toNat ∧ byte.toNat ≤ 57 then
    some (text.foldl (fun sofar byte => 10 * sofar + (byte.toNat - 48)) 0)
  else none

/-- `','`. -/
def comma : UInt8 := 44

/-- Numbers with commas between them. -/
def parseCsv (text : List UInt8) : Option (List Nat) := (text.splitOn comma).mapM parseDecimal

/-- What a text has behind a beginning. -/
def behind (beginning text : List UInt8) : Option (List UInt8) :=
  if beginning <+: text then some (text.drop beginning.length) else none

section Parse

variable {text : List UInt8}

theorem behind_append (beginning text : List UInt8) : behind beginning (beginning ++ text) = some text := by
  rw [behind, if_pos (List.prefix_append beginning text), List.drop_left]

theorem behind_none {beginning : List UInt8} (other : ¬ beginning <+: text) : behind beginning text = none :=
  if_neg other

/-- **`%d` is read back.** -/
theorem parseDecimal_decimal (x : Nat) : parseDecimal (decimal x) = some x := by
  have some_digit : decimal x ≠ [] := by
    rw [decimal, Ne, List.map_eq_nil_iff]
    exact Nat.toDigits_ne_nil
  have digits : (decimal x).all fun byte => 48 ≤ byte.toNat ∧ byte.toNat ≤ 57 := by
    rw [List.all_eq_true]
    exact fun byte member => decide_eq_true (mem_decimal member)
  rw [parseDecimal, if_pos ⟨some_digit, digits⟩, decimal, List.foldl_map]
  have bytes : ∀ (sofar : Nat), ∀ char ∈ Nat.toDigits 10 x,
      10 * sofar + ((UInt8.ofNat char.toNat).toNat - 48) = 10 * sofar + (char.toNat - '0'.toNat) := by
    intro sofar char member
    have isDigit := Nat.isDigit_of_mem_toDigits (by decide) (by decide) member
    simp only [Char.isDigit, Bool.and_eq_true, decide_eq_true_eq, ge_iff_le, UInt32.le_iff_toNat_le] at isDigit
    have high : char.toNat ≤ 57 := isDigit.2
    rw [UInt8.toNat_ofNat', Nat.mod_eq_of_lt (by omega)]
    rfl
  rw [List.foldl_ext _ _ _ bytes, ← Nat.ofDigitChars_eq_foldl, Nat.ofDigitChars_ten_toDigits]

theorem comma_not_mem_decimal (x : Nat) : comma ∉ decimal x := by
  intro member
  have digit := mem_decimal member
  exact absurd digit.1 (by decide)

/-- The numbers of a group. -/
def Group.numbers (group : Group) : List Nat := group.first :: group.others

theorem splitOn_csv (x : Nat) (others : List Nat) :
    (decimal x ++ others.flatMap fun y => ascii "," ++ decimal y).splitOn comma =
      (x :: others).map decimal := by
  induction others generalizing x with
  | nil => simp [List.splitOn_eq_singleton (comma_not_mem_decimal x)]
  | cons y others ih =>
    have first : (y :: others).flatMap (fun y => ascii "," ++ decimal y) =
        comma :: (decimal y ++ others.flatMap fun y => ascii "," ++ decimal y) := by
      rw [List.flatMap_cons, List.append_assoc]
      rfl
    rw [first, List.splitOn_append_cons_self_of_not_mem (comma_not_mem_decimal x), ih]
    rfl

/-- **A list of numbers is read back.** -/
theorem parseCsv_csv (group : Group) : parseCsv group.csv = some group.numbers := by
  rw [parseCsv, Group.csv, splitOn_csv, List.mapM_map]
  show (group.numbers.mapM fun x => parseDecimal (decimal x)) = some group.numbers
  have all := List.mapM_pure (m := Option) (l := group.numbers) (f := id)
  rw [funext parseDecimal_decimal]
  rwa [List.map_id] at all

end Parse

/-! ### The readers -/

/-- A line of `zaptel.conf`. -/
def readFxks (line : List UInt8) : Option (List (Port × Nat)) :=
  match behind (fxks .fxo) line with
  | some list => (parseCsv list).map fun numbers => numbers.map (Port.fxo, ·)
  | none =>
      match behind (fxks .fxs) line with
      | some list => (parseCsv list).map fun numbers => numbers.map (Port.fxs, ·)
      | none => none

/-- The channels of `zaptel.conf`. -/
def readZaptel : List (List UInt8) → Option (List (Port × Nat))
  | [] => some []
  | line :: rest => do
      let here ← readFxks line
      let later ← readZaptel rest
      some (here ++ later)

/-- The channels of `zapata.conf`, each with the signalling that was set last. -/
def readZapata (current : Option Port) : List (List UInt8) → Option (List (Port × Nat))
  | [] => some []
  | line :: rest =>
      if line = signalling .fxo then readZapata (some .fxo) rest
      else if line = signalling .fxs then readZapata (some .fxs) rest
      else do
        let list ← behind channel line
        let port ← current
        let numbers ← parseCsv list
        let later ← readZapata current rest
        some (numbers.map (port, ·) ++ later)

/-- The line that opens a section, in brackets. -/
def readSection (line : List UInt8) : Option Nat := do
  let text ← behind (ascii "[") line
  if text.getLast? = some 93 then parseDecimal text.dropLast else none

/-- The line in a section. -/
def readPort (line : List UInt8) : Option Port :=
  if line = ascii "port=fxo" then some .fxo
  else if line = ascii "port=fxs" then some .fxs
  else none

/-- The channels of `zapscan.conf`. -/
def readZapscan : List (List UInt8) → Option (List (Port × Nat))
  | [] => some []
  | [_] => none
  | head :: body :: rest => do
      let x ← readSection head
      let port ← readPort body
      let later ← readZapscan rest
      some ((port, x) :: later)

/-- The lines of a text, without the empty ones. -/
def textLines (text : List UInt8) : List (List UInt8) := lines (· == newline) text

/-- The channels of groups. -/
def entries (all : List Group) : List (Port × Nat) :=
  all.flatMap fun group => group.numbers.map (group.port, ·)

theorem entries_groups (all : List (Port × Nat)) : entries (groups all) = all := by
  induction all with
  | nil => rfl
  | cons entry rest ih =>
    obtain ⟨port, x⟩ := entry
    unfold groups
    cases tail : groups rest with
    | nil =>
      rw [tail] at ih
      rw [← ih]
      rfl
    | cons next more =>
      rw [tail] at ih
      by_cases same : port = next.port
      · simp only [same, if_true, ← ih]
        rfl
      · simp only [same, if_false, ← ih]
        rfl

/-! ### The channels -/

/-- What `ZT_GET_PARAMS` says of a channel, under `__ZT_SIG_FXO|__ZT_SIG_FXS`. -/
structure Sigcap where
  fxo : Bool
  fxs : Bool
  deriving DecidableEq, Repr

/-- The case of the switch. -/
def Sigcap.port : Sigcap → Option Port
  | ⟨true, false⟩ => some .fxo
  | ⟨false, true⟩ => some .fxs
  | _ => none

/-! ### Reading back -/

section Readers

variable {group : Group} {more : List Group} {line rest : List UInt8} {port : Port}

theorem textLines_line (plain : newline ∉ line) (nonempty : line ≠ []) :
    textLines (line ++ newline :: rest) = line :: textLines rest := by
  refine lines_line _ (fun byte member => ?_) nonempty (by decide)
  rw [beq_eq_false_iff_ne]
  rintro rfl
  exact plain member

theorem textLines_newline : textLines (newline :: rest) = textLines rest := lines_empty _ (by decide)

theorem readFxks_group : readFxks (fxks group.port ++ group.csv) = some (group.numbers.map (group.port, ·)) := by
  unfold readFxks
  cases kind : group.port with
  | fxo => simp only [behind_append, parseCsv_csv, Option.map_some]
  | fxs =>
    have other : ¬ fxks .fxo <+: fxks .fxs ++ group.csv := by
      have differs : (fxks .fxo).isPrefixOf (fxks .fxs ++ group.csv) = false := rfl
      rw [← List.isPrefixOf_iff_prefix, differs]
      exact Bool.false_ne_true
    simp only [behind_none other, behind_append, parseCsv_csv, Option.map_some]

/-- **`zaptel.conf` is read back.** -/
theorem readZaptel_rows (all : List Group) :
    readZaptel (textLines (newline :: rows zaptelOpening all)) = some (entries all) := by
  rw [textLines_newline]
  induction all with
  | nil => rfl
  | cons group more ih =>
    have nonempty : fxks group.port ++ group.csv ≠ [] := by
      cases group.port
      · exact List.cons_ne_nil _ _
      · exact List.cons_ne_nil _ _
    rw [rows_cons, zaptelOpening, textLines_line newline_not_mem_fxks nonempty, readZaptel, readFxks_group, ih]
    rfl

/-- **`zapata.conf` is read back.** -/
theorem readZapata_rows (current : Option Port) (all : List Group) :
    readZapata current (textLines (newline :: rows zapataOpening all)) = some (entries all) := by
  rw [textLines_newline]
  induction all generalizing current with
  | nil => rfl
  | cons group more ih =>
    have listed : ∀ port, channel ++ group.csv ≠ signalling port := by
      intro port same
      have heads := congrArg List.head? same
      cases port
      · exact absurd heads (show ¬ some (99 : UInt8) = some 115 by decide)
      · exact absurd heads (show ¬ some (99 : UInt8) = some 115 by decide)
    have list : readZapata (some group.port) (textLines (channel ++ group.csv ++
        newline :: rows zapataOpening more)) = some (entries (group :: more)) := by
      rw [textLines_line newline_not_mem_channel (List.cons_ne_nil _ _), readZapata,
        if_neg (listed .fxo), if_neg (listed .fxs), behind_append]
      simp only [Option.bind_eq_bind, Option.bind_some, parseCsv_csv, ih]
      rfl
    have nonempty : signalling group.port ≠ [] := by
      cases group.port
      · exact List.cons_ne_nil _ _
      · exact List.cons_ne_nil _ _
    rw [rows_zapata, textLines_line newline_not_mem_signalling nonempty, readZapata, ← list]
    cases group.port with
    | fxo => exact if_pos rfl
    | fxs => exact (if_neg (by decide)).trans (if_pos rfl)

/-- The line in the section of a channel. -/
def portLine : Port → List UInt8
  | .fxo => ascii "port=fxo"
  | .fxs => ascii "port=fxs"

theorem newline_not_mem_head (x : Nat) : newline ∉ ascii "[" ++ decimal x ++ ascii "]" := by
  rw [List.mem_append, List.mem_append, not_or, not_or]
  refine ⟨⟨by decide, fun member => ?_⟩, by decide⟩
  have digit := mem_decimal member
  exact absurd digit.1 (by decide)

theorem readSection_head (x : Nat) : readSection (ascii "[" ++ decimal x ++ ascii "]") = some x := by
  rw [readSection, List.append_assoc, behind_append]
  show (if (decimal x ++ [93]).getLast? = some 93 then parseDecimal (decimal x ++ [93]).dropLast else none) =
    some x
  rw [List.getLast?_concat, if_pos rfl, List.dropLast_concat, parseDecimal_decimal]

/-- **`zapscan.conf` is read back.** -/
theorem readZapscan_scan (oldsig : Option Port) (x : Nat) (table : List (Option Port)) :
    readZapscan (textLines (scan oldsig x table).zapscan) = some (ports x table) := by
  induction table generalizing oldsig x with
  | nil => rfl
  | cons entry rest ih =>
    cases entry with
    | none => exact ih oldsig (x + 1)
    | some port =>
      have sections : zapscanSection x port = ascii "[" ++ decimal x ++ ascii "]" ++
          newline :: (portLine port ++ [newline]) := by
        cases port
        · exact (List.append_assoc (ascii "[" ++ decimal x) (ascii "]") _).symm
        · exact (List.append_assoc (ascii "[" ++ decimal x) (ascii "]") _).symm
      have text : (scan oldsig x (some port :: rest)).zapscan =
          ascii "[" ++ decimal x ++ ascii "]" ++
            newline :: (portLine port ++ newline :: (scan (some port) (x + 1) rest).zapscan) := by
        show zapscanSection x port ++ (scan (some port) (x + 1) rest).zapscan = _
        rw [sections]
        simp
      have body : newline ∉ portLine port ∧ portLine port ≠ [] ∧ readPort (portLine port) = some port := by
        cases port
        · decide
        · decide
      rw [text, textLines_line (newline_not_mem_head x) (List.cons_ne_nil _ _),
        textLines_line body.1 body.2.1, readZapscan, readSection_head, body.2.2, ih]
      rfl

theorem mem_ports_cons {entry : Option Port} {table : List (Option Port)} {first x : Nat} :
    (port, x) ∈ ports first (entry :: table) ↔
      (entry = some port ∧ x = first) ∨ (port, x) ∈ ports (first + 1) table := by
  cases entry with
  | none => simp [ports]
  | some other => simp [ports, eq_comm]

/-- **The channels of a table.** -/
theorem mem_ports {table : List (Option Port)} {first x : Nat} :
    (port, x) ∈ ports first table ↔ first ≤ x ∧ table[x - first]? = some (some port) := by
  induction table generalizing first with
  | nil => simp [ports]
  | cons entry rest ih =>
    rw [mem_ports_cons, ih]
    constructor
    · rintro (⟨rfl, rfl⟩ | ⟨later, found⟩)
      · exact ⟨le_rfl, by rw [Nat.sub_self]; rfl⟩
      · obtain ⟨k, rfl⟩ := Nat.exists_eq_add_of_le later
        rw [Nat.add_sub_cancel_left] at found
        refine ⟨by omega, ?_⟩
        rw [show first + 1 + k - first = k + 1 by omega, List.getElem?_cons_succ, found]
    · rintro ⟨order, found⟩
      obtain ⟨k, rfl⟩ := Nat.exists_eq_add_of_le order
      rw [Nat.add_sub_cancel_left] at found
      cases k with
      | zero => exact .inl ⟨Option.some.inj found, rfl⟩
      | succ k =>
        refine .inr ⟨by omega, ?_⟩
        rw [show first + (k + 1) - (first + 1) = k by omega]
        exact found

theorem ports_ascending (first : Nat) (table : List (Option Port)) :
    ((ports first table).map Prod.snd).Pairwise (· < ·) := by
  induction table generalizing first with
  | nil => exact List.Pairwise.nil
  | cons entry rest ih =>
    cases entry with
    | none => exact ih (first + 1)
    | some port =>
      refine List.pairwise_cons.mpr ⟨fun x member => ?_, ih (first + 1)⟩
      obtain ⟨⟨other, _⟩, inRest, rfl⟩ := List.mem_map.mp member
      exact (mem_ports.mp inRest).1

/-- **The three outputs describe the same channels.** What `main` writes of the channels reads back as one
map from every text: it has the FXO and the FXS channels and no others, each once, in ascending order. -/
theorem scan_reads_back (sigcaps : List Sigcap) :
    let out := scan none 1 (sigcaps.map Sigcap.port)
    ∃ channels : List (Port × Nat),
      readZaptel (textLines out.zaptel) = some channels ∧
      readZapata none (textLines out.zapata) = some channels ∧
      readZapscan (textLines out.zapscan) = some channels ∧
      (channels.map Prod.snd).Pairwise (· < ·) ∧
      ∀ port x, (port, x) ∈ channels ↔
        1 ≤ x ∧ ∃ sigcap, sigcaps[x - 1]? = some sigcap ∧ sigcap.port = some port := by
  have apart := groups_apart (ports 1 (sigcaps.map Sigcap.port))
  obtain ⟨zaptel, zapata⟩ := scan_written none 1 (sigcaps.map Sigcap.port)
  rw [written_rows apart (by simp)] at zaptel zapata
  refine ⟨ports 1 (sigcaps.map Sigcap.port), ?_, ?_, readZapscan_scan _ _ _, ports_ascending _ _, ?_⟩
  · rw [zaptel, readZaptel_rows, entries_groups]
  · rw [zapata, readZapata_rows, entries_groups]
  · intro port x
    rw [mem_ports, List.getElem?_map, Option.map_eq_some_iff]

end Readers

end Baps.Zapscan
