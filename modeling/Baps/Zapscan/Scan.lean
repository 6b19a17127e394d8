/-
**zapscan: the channels into the configuration files.**

`main` strips `zaptel.conf` and `zapata.conf` of what earlier runs have written and appends the channels
again, a new line for every change between FXO and FXS; `zapscan.conf` is written anew. Every append
opens with a newline, which `strip_lines` takes for an empty line before its match.

* `groups` — the channels as the two files list them; `scan_written` says that the loop writes them.
* `kept_channels` — **what an append leaves behind**: nothing just if its lines fit into the buffer.
* `rerun_iff` — **when a second run changes nothing**.
-/

import Baps.Zapscan.Strip
import Mathlib.Data.List.Chain

namespace Baps.Zapscan

open Text

/-! ### The code -/

/-- The two cases of the switch; they are also the values of `oldsig`. -/
inductive Port
  | fxo
  | fxs
  deriving DecidableEq, Repr

/-- The files in `/etc` and `/etc/asterisk`. -/
structure Files where
  zaptel : List UInt8
  zapscan : List UInt8
  zapata : List UInt8
  deriving DecidableEq, Repr

/-- `%d`. -/
def decimal (x : Nat) : List UInt8 := (Nat.toDigits 10 x).map fun char => UInt8.ofNat char.toNat

/-- `"fxoks="` and `"fxsks="`. -/
def fxks : Port → List UInt8
  | .fxo => ascii "fxoks="
  | .fxs => ascii "fxsks="

/-- `"signalling = fxo_ks"` and `"signalling = fxs_ks"`. -/
def signalling : Port → List UInt8
  | .fxo => ascii "signalling = fxo_ks"
  | .fxs => ascii "signalling = fxs_ks"

/-- `"channel => "`. -/
def channel : List UInt8 := ascii "channel => "

/-- What `zapscan.conf` says of a channel. -/
def zapscanSection (x : Nat) : Port → List UInt8
  | .fxo => ascii "[" ++ decimal x ++ ascii "]\nport=fxo\n"
  | .fxs => ascii "[" ++ decimal x ++ ascii "]\nport=fxs\n"

/-- What a new signalling opens in `zaptel.conf`, behind a newline. -/
def zaptelOpening (port : Port) : List UInt8 := fxks port

/-- What a new signalling opens in `zapata.conf`, behind a newline. -/
def zapataOpening (port : Port) : List UInt8 := signalling port ++ newline :: channel

/-- A channel in `zaptel.conf` or `zapata.conf`. -/
def numbered (opening : Port → List UInt8) (oldsig : Option Port) (port : Port) (x : Nat) :
    List UInt8 :=
  (if oldsig ≠ some port then newline :: opening port else ascii ",") ++ decimal x

/-- The loop of `main` from channel `x` on, and what follows it. The table has a channel's `sigcap`
under `__ZT_SIG_FXO|__ZT_SIG_FXS`: FXO, FXS, or anything else. It ends where the `ioctl` fails. -/
def scan (oldsig : Option Port) (x : Nat) : List (Option Port) → Files
  | [] => ⟨[newline], [newline], [newline]⟩
  | none :: rest => scan oldsig (x + 1) rest
  | some port :: rest =>
      let later := scan (some port) (x + 1) rest
      { zaptel := numbered zaptelOpening oldsig port x ++ later.zaptel
        zapscan := zapscanSection x port ++ later.zapscan
        zapata := numbered zapataOpening oldsig port x ++ later.zapata }

/-- `strip_lines("/etc/zaptel.conf", …)`, twice. -/
def stripZaptel (file : List UInt8) : List UInt8 :=
  stripLines (ascii "fxoks =") (ascii "fxsks =") (stripLines (ascii "fxoks=") (ascii "fxsks=") file)

/-- `strip_lines("/etc/asterisk/zapata.conf", …)`. -/
def stripZapata (file : List UInt8) : List UInt8 :=
  stripLines (ascii "signalling =") (ascii "channel =>") file

/-- `main`, on a system whose channels have these capabilities. -/
def main (table : List (Option Port)) (files : Files) : Files :=
  let out := scan none 1 table
  { zaptel := stripZaptel files.zaptel ++ out.zaptel
    zapscan := out.zapscan
    zapata := stripZapata files.zapata ++ out.zapata }

/-! ### The channels, signalling by signalling -/

/-- Channels with one signalling. -/
structure Group where
  port : Port
  first : Nat
  others : List Nat

/-- The FXO and FXS channels of a table that begins with channel `x`. -/
def ports (x : Nat) : List (Option Port) → List (Port × Nat)
  | [] => []
  | none :: rest => ports (x + 1) rest
  | some port :: rest => (port, x) :: ports (x + 1) rest

/-- The channels up to each change of the signalling. -/
def groups : List (Port × Nat) → List Group
  | [] => []
  | (port, x) :: rest =>
      match groups rest with
      | [] => [⟨port, x, []⟩]
      | next :: more =>
          if port = next.port then ⟨port, x, next.first :: next.others⟩ :: more
          else ⟨port, x, []⟩ :: next :: more

/-- The numbers of a group, with commas. -/
def Group.csv (group : Group) : List UInt8 :=
  decimal group.first ++ group.others.flatMap fun x => ascii "," ++ decimal x

/-- The lines of the groups. -/
def rows (opening : Port → List UInt8) (all : List Group) : List UInt8 :=
  all.flatMap fun group => opening group.port ++ group.csv ++ [newline]

/-- What is written for groups when the signalling was `oldsig`. -/
def written (opening : Port → List UInt8) (oldsig : Option Port) : List Group → List UInt8
  | [] => [newline]
  | group :: more =>
      (if oldsig ≠ some group.port then newline :: opening group.port else ascii ",") ++ group.csv ++
        written opening (some group.port) more

section Groups

variable {opening : Port → List UInt8}

/-- The neighbours of a group have the other signalling. -/
theorem groups_apart (all : List (Port × Nat)) :
    (groups all).IsChain fun group next => group.port ≠ next.port := by
  induction all with
  | nil => exact List.IsChain.nil
  | cons entry rest ih =>
    obtain ⟨port, x⟩ := entry
    unfold groups
    cases tail : groups rest with
    | nil => exact List.IsChain.singleton _
    | cons next more =>
      rw [tail] at ih
      by_cases same : port = next.port
      · simp only [same, if_true]
        cases more with
        | nil => exact List.IsChain.singleton _
        | cons third others =>
          rw [List.isChain_cons_cons] at ih ⊢
          exact ih
      · simp only [same, if_false]
        exact List.isChain_cons_cons.mpr ⟨same, ih⟩

theorem groups_eq_nil (all : List (Port × Nat)) : groups all = [] ↔ all = [] := by
  cases all with
  | nil => simp [groups]
  | cons entry rest =>
    unfold groups
    split
    · simp
    · split
      · simp
      · simp

theorem ports_eq_nil (x : Nat) (table : List (Option Port)) :
    ports x table = [] ↔ ∀ port, some port ∉ table := by
  induction table generalizing x with
  | nil => simp [ports]
  | cons entry rest ih =>
    cases entry with
    | none => simp [ports, ih]
    | some port => simpa [ports] using ⟨port, fun absent => absurd rfl absent⟩

/-- One channel before the groups of the others. -/
theorem written_cons (oldsig : Option Port) (port : Port) (x : Nat) (rest : List (Port × Nat)) :
    written opening oldsig (groups ((port, x) :: rest)) =
      numbered opening oldsig port x ++ written opening (some port) (groups rest) := by
  rw [groups]
  cases groups rest with
  | nil => simp [written, numbered, Group.csv]
  | cons next more =>
    by_cases same : port = next.port
    · simp [written, numbered, Group.csv, same]
    · simp [written, numbered, Group.csv, same]

/-- **The loop writes the groups.** -/
theorem scan_written (oldsig : Option Port) (x : Nat) (table : List (Option Port)) :
    (scan oldsig x table).zaptel = written zaptelOpening oldsig (groups (ports x table)) ∧
      (scan oldsig x table).zapata = written zapataOpening oldsig (groups (ports x table)) := by
  induction table generalizing oldsig x with
  | nil => exact ⟨rfl, rfl⟩
  | cons entry rest ih =>
    cases entry with
    | none => exact ih oldsig (x + 1)
    | some port =>
      obtain ⟨zaptel, zapata⟩ := ih (some port) (x + 1)
      rw [ports, written_cons, written_cons, ← zaptel, ← zapata]
      exact ⟨rfl, rfl⟩

/-- A newline, then line after line. -/
theorem written_rows {oldsig : Option Port} {all : List Group}
    (apart : all.IsChain fun group next => group.port ≠ next.port)
    (changed : ∀ group ∈ all.head?, oldsig ≠ some group.port) :
    written opening oldsig all = newline :: rows opening all := by
  induction all generalizing oldsig with
  | nil => rfl
  | cons group more ih =>
    obtain ⟨next, later⟩ := List.isChain_cons.mp apart
    have changes : ∀ other ∈ more.head?, some group.port ≠ some other.port :=
      fun other member same => next other member (Option.some.inj same)
    rw [written, if_pos (changed group rfl), ih later changes]
    simp [rows]

end Groups

/-! ### The bytes of a list -/

section Csv

variable {byte : UInt8} {group : Group} {text : List UInt8}

theorem mem_decimal {x : Nat} (member : byte ∈ decimal x) : 48 ≤ byte.toNat ∧ byte.toNat ≤ 57 := by
  obtain ⟨char, digit, rfl⟩ := List.mem_map.mp member
  have isDigit := Nat.isDigit_of_mem_toDigits (by decide) (by decide) digit
  simp only [Char.isDigit, Bool.and_eq_true, decide_eq_true_eq, ge_iff_le, UInt32.le_iff_toNat_le] at isDigit
  have low : 48 ≤ char.toNat := isDigit.1
  have high : char.toNat ≤ 57 := isDigit.2
  rw [UInt8.toNat_ofNat']
  omega

/-- Digits and commas. -/
theorem mem_csv (member : byte ∈ group.csv) : 44 ≤ byte.toNat ∧ byte.toNat ≤ 57 := by
  unfold Group.csv at member
  rcases List.mem_append.mp member with first | later
  · have digit := mem_decimal first
    omega
  · obtain ⟨x, -, inside⟩ := List.mem_flatMap.mp later
    rcases List.mem_append.mp inside with comma | digits
    · rw [show ascii "," = [44] from rfl, List.mem_singleton] at comma
      subst comma
      decide
    · have digit := mem_decimal digits
      omega

theorem newline_not_mem_csv : newline ∉ group.csv := by
  intro member
  have bounds := mem_csv member
  exact absurd bounds.1 (by decide)

theorem zero_not_mem_csv : 0 ∉ group.csv := by
  intro member
  have bounds := mem_csv member
  exact absurd bounds.1 (by decide)

end Csv

/-! ### What an append leaves behind -/

/-- **The lines that list the channels fit**: `channel => `, the numbers and, in the last of them, the
newline are at most 254 bytes. -/
def Fits : List Group → Prop
  | [] => True
  | group :: more =>
      (channel.length + group.csv.length < lineSize ∨
        channel.length + group.csv.length = lineSize ∧ more ≠ []) ∧ Fits more

/-- The matches in `zaptel.conf`. -/
def fxksLine : List UInt8 → Bool := begins (ascii "fxoks=") (ascii "fxsks=")

/-- The matches in `zaptel.conf` as the GUI writes them. -/
def fxksSpaced : List UInt8 → Bool := begins (ascii "fxoks =") (ascii "fxsks =")

/-- The matches in `zapata.conf`. -/
def channelLine : List UInt8 → Bool := begins (ascii "signalling =") (ascii "channel =>")

section Left

variable {group : Group} {all more : List Group} {port : Port} {rest : List UInt8}

theorem fxksTexts : Texts (ascii "fxoks=") (ascii "fxsks=") := by
  constructor
  all_goals decide

theorem fxksSpacedTexts : Texts (ascii "fxoks =") (ascii "fxsks =") := by
  constructor
  all_goals decide

theorem channelTexts : Texts (ascii "signalling =") (ascii "channel =>") := by
  constructor
  all_goals decide

theorem fxksLine_fxks : fxksLine (fxks port ++ rest) = true := by
  cases port
  · rfl
  · rfl

theorem channelLine_signalling : channelLine (signalling port ++ rest) = true := by
  cases port
  · rfl
  · rfl

theorem channelLine_blank : channelLine [newline] = false := begins_blank channelTexts

theorem channelLine_channel : channelLine (channel ++ rest) = true := by
  rfl

/-- The end of a list is no match. -/
theorem channelLine_csv {byte : UInt8} (member : byte ∈ group.csv) (string : List UInt8) :
    channelLine (byte :: string) = false := by
  have bounds := mem_csv member
  have notS : (115 == byte) = false := by
    rw [beq_eq_false_iff_ne]
    exact fun same => absurd (same ▸ bounds.2) (by decide)
  have notC : (99 == byte) = false := by
    rw [beq_eq_false_iff_ne]
    exact fun same => absurd (same ▸ bounds.2) (by decide)
  have sText : ascii "signalling =" = 115 :: (ascii "signalling =").tail := by decide
  have cText : ascii "channel =>" = 99 :: (ascii "channel =>").tail := by decide
  unfold channelLine begins
  rw [sText, cText, List.isPrefixOf_cons_cons, List.isPrefixOf_cons_cons, notS, notC, Bool.false_and,
    Bool.false_and, Bool.or_false]

theorem rows_cons (opening : Port → List UInt8) : rows opening (group :: more) =
    opening group.port ++ group.csv ++ newline :: rows opening more := by
  simp [rows]

/-- A group in `zapata.conf` is two lines. -/
theorem rows_zapata : rows zapataOpening (group :: more) = signalling group.port ++
    newline :: (channel ++ group.csv ++ newline :: rows zapataOpening more) := by
  simp [rows_cons, zapataOpening]

theorem newline_not_mem_signalling : newline ∉ signalling port := by
  cases port
  · decide
  · decide

theorem signalling_short : (signalling port).length < lineSize := by
  cases port
  · decide
  · decide

theorem newline_not_mem_fxks : newline ∉ fxks port ++ group.csv := by
  rw [List.mem_append, not_or]
  refine ⟨?_, newline_not_mem_csv⟩
  cases port
  · decide
  · decide

/-- The line in `zaptel.conf` is shorter than the one in `zapata.conf`. -/
theorem fxks_short (fits : Fits (group :: more)) : (fxks port ++ group.csv).length < lineSize := by
  have shorter : (fxks port).length < channel.length := by
    cases port
    · decide
    · decide
  rw [List.length_append]
  have bound := fits.1
  omega

theorem newline_not_mem_channel : newline ∉ channel ++ group.csv := by
  rw [List.mem_append, not_or]
  exact ⟨by decide, newline_not_mem_csv⟩

/-- An append to `zapata.conf` opens with a match, if there are channels. -/
theorem opens_zapata : (reads newline lineSize [] (rows zapataOpening all)).head?.any channelLine = true ↔
    all ≠ [] := by
  cases all with
  | nil => simp [rows]
  | cons group more =>
    rw [rows_zapata, reads_line newline_not_mem_signalling signalling_short]
    simp [channelLine_signalling]

/-- **What an append to `zapata.conf` leaves behind.** -/
theorem kept_channels : kept channelLine (reads newline lineSize [] (rows zapataOpening all)) = [] ↔
    Fits all := by
  induction all with
  | nil => simp [rows, kept, Fits]
  | cons group more ih =>
    rw [rows_zapata, kept_short newline_not_mem_signalling signalling_short channelLine_signalling, Fits]
    have size : (channel ++ group.csv).length = channel.length + group.csv.length := List.length_append
    rcases Nat.lt_trichotomy (channel.length + group.csv.length) lineSize with short | full | long
    · rw [kept_short newline_not_mem_channel (by rw [size]; exact short)
        (by rw [List.append_assoc]; exact channelLine_channel), ih]
      simp [short]
    · rw [kept_full newline_not_mem_channel (by rw [size]; exact full) channelLine_channel,
        kept_blank_nil channelLine_blank, opens_zapata, ih]
      simp [full]
    · -- the end of the list is read as a line of its own
      have room : channel.length ≤ lineSize := by decide
      have left : kept channelLine (reads newline lineSize []
          (channel ++ group.csv ++ newline :: rows zapataOpening more)) ≠ [] := by
        refine kept_long newline_not_mem_channel (by rw [size]; exact long) ?_ fun byte member => ?_
        · rw [List.take_append, List.take_of_length_le room]
          exact channelLine_channel
        · rw [List.drop_append, List.drop_eq_nil_of_le room, List.nil_append] at member
          exact channelLine_csv (List.mem_of_mem_drop member)
      simp only [left, false_iff, not_and]
      intro fits
      omega

/-- An append to `zaptel.conf` leaves nothing behind when the longer lines of `zapata.conf` fit. -/
theorem kept_fxks (fits : Fits all) :
    kept fxksLine (reads newline lineSize [] (rows zaptelOpening all)) = [] := by
  induction all with
  | nil => rfl
  | cons group more ih =>
    have plain : newline ∉ fxks group.port ++ group.csv := newline_not_mem_fxks
    rw [rows_cons, zaptelOpening, kept_short plain (fxks_short fits)
      (by rw [List.append_assoc]; exact fxksLine_fxks), ih fits.2]

/-- An append to `zaptel.conf` opens with a match, if there are channels. -/
theorem opens_zaptel (fits : Fits (group :: more)) :
    (reads newline lineSize [] (rows zaptelOpening (group :: more))).head?.any fxksLine = true := by
  have plain : newline ∉ fxks group.port ++ group.csv := newline_not_mem_fxks
  rw [rows_cons, zaptelOpening, reads_line plain (fxks_short fits), List.head?_cons, Option.any_some,
    List.append_assoc]
  exact fxksLine_fxks

end Left

/-! ### The second run -/

section Rerun

variable {all : List Group} {conf : Conf} {port : Port}

theorem zero_not_mem_rows {opening : Port → List UInt8} (all : List Group)
    (clean : ∀ port, 0 ∉ opening port) :
    0 ∉ rows opening all := by
  unfold rows
  rw [List.mem_flatMap]
  rintro ⟨group, -, zero⟩
  simp only [List.mem_append, List.mem_singleton] at zero
  rcases zero with (early | inside) | last
  · exact clean group.port early
  · exact zero_not_mem_csv inside
  · exact absurd last (by decide)

theorem zero_not_mem_zaptelOpening (port : Port) : 0 ∉ zaptelOpening port := by
  cases port
  · decide
  · decide

theorem zero_not_mem_zapataOpening (port : Port) : 0 ∉ zapataOpening port := by
  cases port
  · decide
  · decide

/-- The strings that stay in `zaptel.conf`. -/
def zaptelKept (conf : Conf) : List (List UInt8) := kept fxksSpaced (kept fxksLine conf.strings)

/-- The strings that stay in `zapata.conf`. -/
def zapataKept (conf : Conf) : List (List UInt8) := kept channelLine conf.strings

theorem stripZaptel_text (conf : Conf) : stripZaptel conf.text = (zaptelKept conf).flatten := by
  unfold stripZaptel Conf.text
  rw [stripLines_flatten conf.plain, stripLines_flatten (conf.plain.kept _)]
  rfl

theorem stripZapata_text (conf : Conf) : stripZapata conf.text = (zapataKept conf).flatten :=
  stripLines_flatten conf.plain

/-- **When a second run leaves `zapata.conf` as it is.** -/
theorem zapata_rerun (conf : Conf) (all : List Group) :
    stripZapata (stripZapata conf.text ++ newline :: rows zapataOpening all) = stripZapata conf.text ↔
      all ≠ [] ∧ Fits all ∧ conf.Ends channelLine := by
  have free : ∀ string ∈ zapataKept conf, channelLine string = false := kept_free
  have ends := Conf.ends_iff (kept_sublist channelLine conf.strings) free fun string => mem_kept
  have back := stripLines_back_iff channelTexts (conf.plain.kept channelLine) free
    (zero_not_mem_rows all zero_not_mem_zapataOpening)
  rw [stripZapata_text]
  calc
    stripZapata ((zapataKept conf).flatten ++ newline :: rows zapataOpening all) =
        (zapataKept conf).flatten ↔
      (∀ string ∈ zapataKept conf, Finished newline lineSize string) ∧
        (reads newline lineSize [] (rows zapataOpening all)).head?.any channelLine = true ∧
        kept channelLine (reads newline lineSize [] (rows zapataOpening all)) = [] := back
    _ ↔ conf.Ends channelLine ∧ all ≠ [] ∧ Fits all := by
      rw [opens_zapata, kept_channels]
      exact and_congr_left fun _ => ends
    _ ↔ all ≠ [] ∧ Fits all ∧ conf.Ends channelLine := by
      rw [and_comm, and_assoc]

/-- The strings that stay in `zaptel.conf` begin with none of its texts. -/
theorem zaptelKept_free (conf : Conf) :
    ∀ string ∈ zaptelKept conf, fxksLine string = false ∧ fxksSpaced string = false := fun string member =>
  ⟨kept_free string ((kept_sublist fxksSpaced _).subset member), kept_free string member⟩

theorem zaptelKept_ends (conf : Conf) :
    (∀ string ∈ zaptelKept conf, Finished newline lineSize string) ↔
      conf.Ends fun line => fxksLine line || fxksSpaced line := by
  refine Conf.ends_iff ((kept_sublist _ _).trans (kept_sublist _ _)) (fun string member => ?_)
    fun string member noMatch notBlank => ?_
  · have free := zaptelKept_free conf string member
    rw [free.1, free.2]
    rfl
  · rw [Bool.or_eq_false_iff] at noMatch
    exact mem_kept (mem_kept member noMatch.1 notBlank) noMatch.2 notBlank

/-- **When a second run leaves `zaptel.conf` as it is**, if there are channels and their lines fit. -/
theorem zaptel_rerun (conf : Conf) (fits : Fits all) (some_group : all ≠ []) :
    stripZaptel (stripZaptel conf.text ++ newline :: rows zaptelOpening all) = stripZaptel conf.text ↔
      conf.Ends fun line => fxksLine line || fxksSpaced line := by
  have plain : Plain (zaptelKept conf) := (conf.plain.kept fxksLine).kept fxksSpaced
  have free1 : ∀ string ∈ zaptelKept conf, fxksLine string = false := fun string member =>
    (zaptelKept_free conf string member).1
  have free2 : ∀ string ∈ zaptelKept conf, fxksSpaced string = false := fun string member =>
    (zaptelKept_free conf string member).2
  have clean : 0 ∉ rows zaptelOpening all := zero_not_mem_rows all zero_not_mem_zaptelOpening
  rw [stripZaptel_text, ← zaptelKept_ends]
  constructor
  · intro same
    by_contra unfinished
    -- neither pass takes out the newline that the last line has got
    obtain ⟨rest1, eq1, clean1⟩ := stripLines_unfinished fxksTexts plain free1 unfinished clean
    obtain ⟨rest2, eq2, -⟩ := stripLines_unfinished fxksSpacedTexts plain free2 unfinished clean1
    rw [stripZaptel, eq1, eq2, List.append_right_eq_self] at same
    exact absurd same (List.cons_ne_nil _ _)
  · intro finished
    obtain ⟨group, more, rfl⟩ := List.exists_cons_of_ne_nil some_group
    have first : stripLines (ascii "fxoks=") (ascii "fxsks=")
        ((zaptelKept conf).flatten ++ newline :: rows zaptelOpening (group :: more)) =
          (zaptelKept conf).flatten :=
      (stripLines_back_iff fxksTexts plain free1 clean).mpr ⟨finished, opens_zaptel fits, kept_fxks fits⟩
    rw [stripZaptel, first, stripLines_flatten plain]
    exact congrArg List.flatten (kept_of_free free2)

/-- **A second run changes nothing just if** there is an FXO or FXS channel, the lines that list the
channels fit into the buffer of `strip_lines`, and both files ended with a newline or a match. -/
theorem rerun_iff (table : List (Option Port)) (zaptel zapata : Conf) (zapscan : List UInt8) :
    main table (main table ⟨zaptel.text, zapscan, zapata.text⟩) =
        main table ⟨zaptel.text, zapscan, zapata.text⟩ ↔
      (∃ port, some port ∈ table) ∧ Fits (groups (ports 1 table)) ∧
        (zaptel.Ends fun line => fxksLine line || fxksSpaced line) ∧ zapata.Ends channelLine := by
  have apart := groups_apart (ports 1 table)
  have written1 := (scan_written none 1 table).1
  have written2 := (scan_written none 1 table).2
  rw [written_rows apart (by simp)] at written1 written2
  have some_group : groups (ports 1 table) ≠ [] ↔ ∃ port, some port ∈ table := by
    rw [Ne, groups_eq_nil, ports_eq_nil]
    simp
  have files : main table (main table ⟨zaptel.text, zapscan, zapata.text⟩) =
      main table ⟨zaptel.text, zapscan, zapata.text⟩ ↔
        stripZaptel (stripZaptel zaptel.text ++ newline :: rows zaptelOpening (groups (ports 1 table))) =
            stripZaptel zaptel.text ∧
          stripZapata (stripZapata zapata.text ++ newline :: rows zapataOpening (groups (ports 1 table))) =
            stripZapata zapata.text := by
    simp only [main, written1, written2, Files.mk.injEq, true_and, List.append_cancel_right_eq]
  rw [files, zapata_rerun, some_group]
  constructor
  · rintro ⟨same, channels, fits, ends⟩
    exact ⟨channels, fits, (zaptel_rerun zaptel fits (some_group.mpr channels)).mp same, ends⟩
  · rintro ⟨channels, fits, zaptelEnds, ends⟩
    exact ⟨(zaptel_rerun zaptel fits (some_group.mpr channels)).mpr zaptelEnds, channels, fits, ends⟩

end Rerun

/-- **Without channels both files grow by a line in every run**, and a last line without its newline gets
one from the second run. -/
theorem main_grows :
    main [] (main [] ⟨[], [], []⟩) ≠ main [] ⟨[], [], []⟩ ∧
      main [some .fxo] (main [some .fxo] ⟨ascii "loadzone=us", [], []⟩) ≠
        main [some .fxo] ⟨ascii "loadzone=us", [], []⟩ := by
  decide +kernel

end Baps.Zapscan
