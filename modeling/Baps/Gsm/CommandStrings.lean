/-
**The command strings of the GSM channel, byte by byte.**

`wcfxs_hooksig` builds the dial command in `GSM_Call_string`, 30 bytes, with one `strcpy` and two
`strcat`, and takes the last character of the dial string out in between: it should be the wait mark
`w`. `wcfxs_init_one` completes the PIN command in `SIM_Enter_string`, 20 bytes. Nothing checks a length.
Addresses count from the start of the array, and `others` is what lies around it.

* `callString_concat`, `simEnterString_eq` — **the strings that come out**.
* `commandStrings_iff` — **when they are right, and stay in their arrays**.
-/

import Baps.Gsm.Control
import Baps.Memory.CString

namespace Baps.Gsm

open Memory

/-! ### Strings -/

/-- A C string: no character is zero, and it leaves room for other objects in 32-bit memory. -/
structure CText where
  chars : List UInt8
  nonzero : ∀ char ∈ chars, char ≠ 0
  fits : chars.length ≤ 4294967200

/-- A dial string that is not empty. -/
structure DialString extends CText where
  nonempty : chars ≠ []

/-- `w`, `;` and `"`. -/
def waitMark : UInt8 := 0x77
def semicolon : UInt8 := 0x3b
def quote : UInt8 := 0x22

/-- `at+cpin="`. -/
def commandPin : List UInt8 := [0x61, 0x74, 0x2b, 0x63, 0x70, 0x69, 0x6e, 0x3d, 0x22]

/-! ### The dial command -/

/-- The size of `GSM_Call_string`. -/
def callStringSize : Nat := 30

/-- `char GSM_Call_string[30]="atd"`. -/
def callStart (others : Bytes) : Bytes := writeAll others (row 0 (commandDial ++ List.replicate 27 0))

/-- The stores of `wcfxs_hooksig` into `GSM_Call_string`. -/
def callStores (others : Bytes) (txdialbuf : List UInt8) : List Store :=
  let memory := callStart others
  let first := strcpy 0 commandDial
  let memory := writeAll memory first
  let second := strcat memory 0 txdialbuf
  let memory := writeAll memory second
  let len := strlen memory 0
  let third := [(len - 1, 0)]
  let memory := writeAll memory third
  first ++ second ++ third ++ strcat memory 0 [semicolon]

/-- The string it sends. -/
def callString (others : Bytes) (txdialbuf : List UInt8) : List UInt8 :=
  stringAt (writeAll (callStart others) (callStores others txdialbuf)) 0

theorem commandDial_nonzero : ∀ char ∈ commandDial, char ≠ 0 := by simp [commandDial]

section Call

variable (others : Bytes)

/-- **The stores of a dial string**, its last character apart, and the string they leave. -/
theorem callStores_concat {digits : List UInt8} {last : UInt8} (nonzero : ∀ char ∈ digits ++ [last], char ≠ 0)
    (fits : digits.length ≤ 4294967200) :
    callStores others (digits ++ [last]) =
      row 0 (commandDial ++ [0]) ++ row 3 (digits ++ [last] ++ [0]) ++ [(3 + digits.length, 0)] ++
        row (3 + digits.length) [semicolon, 0] ∧
    Holds (writeAll (callStart others) (callStores others (digits ++ [last]))) 0
      (commandDial ++ digits ++ [semicolon]) := by
  have copied : Holds (writeAll (callStart others) (strcpy 0 commandDial)) 0 commandDial := .strcpy _ _ _
  obtain ⟨placed, dialled⟩ := copied.strcat commandDial_nonzero (by decide) (digits ++ [last])
  have dialNonzero : ∀ char ∈ commandDial ++ (digits ++ [last]), char ≠ 0 := fun char member =>
    (List.mem_append.mp member).elim (commandDial_nonzero char) (nonzero char)
  have width : (commandDial ++ (digits ++ [last])).length = 3 + digits.length + 1 := by
    rw [List.length_append, List.length_append]
    rfl
  have len := dialled.strlen dialNonzero (by omega)
  rw [← List.append_assoc] at dialled
  have cut := dialled.cut
  have cutNonzero : ∀ char ∈ commandDial ++ digits, char ≠ 0 := fun char member =>
    dialNonzero char (by rw [← List.append_assoc]; exact List.mem_append_left _ member)
  have cutWidth : (commandDial ++ digits).length = 3 + digits.length := List.length_append
  rw [cutWidth, Nat.zero_add] at cut
  obtain ⟨ended, done⟩ := cut.strcat cutNonzero (by omega) [semicolon]
  have stores : callStores others (digits ++ [last]) = strcpy 0 commandDial ++
      strcat (writeAll (callStart others) (strcpy 0 commandDial)) 0 (digits ++ [last]) ++
      [(3 + digits.length, 0)] ++ strcat (write (writeAll (writeAll (callStart others) (strcpy 0 commandDial))
        (strcat (writeAll (callStart others) (strcpy 0 commandDial)) 0 (digits ++ [last])))
        (3 + digits.length) 0) 0 [semicolon] := by
    rw [callStores]
    simp only [len, width, Nat.add_sub_cancel]
    rfl
  refine ⟨?_, ?_⟩
  · rw [stores, ended, placed, cutWidth, Nat.zero_add, Nat.zero_add]
    rfl
  · rw [stores, writeAll_append, writeAll_append, writeAll_append]
    exact done

/-- **The dial command**: the dial string without its last character. -/
theorem callString_concat {digits : List UInt8} {last : UInt8} (nonzero : ∀ char ∈ digits ++ [last], char ≠ 0)
    (fits : digits.length ≤ 4294967200) :
    callString others (digits ++ [last]) = gsmCallString (digits ++ [last]) := by
  have holds := (callStores_concat others nonzero fits).2
  rw [callString, gsmCallString, List.dropLast_concat]
  refine holds.stringAt (fun char member => ?_) ?_
  · rcases List.mem_append.mp member with front | back
    · rcases List.mem_append.mp front with command | digit
      · exact commandDial_nonzero char command
      · exact nonzero char (List.mem_append_left _ digit)
    · rw [List.mem_singleton.mp back]
      decide
  · rw [List.length_append, List.length_append]
    show 3 + digits.length + 1 < _
    omega

/-- The command that dials a string: without its wait mark, if it has one. -/
def wantedCall (txdialbuf : List UInt8) : List UInt8 :=
  commandDial ++ (if txdialbuf.getLast? = some waitMark then txdialbuf.dropLast else txdialbuf) ++ [semicolon]

/-- The dial command is the right one, and was built inside its array. -/
def CallRight (txdialbuf : List UInt8) : Prop :=
  callString others txdialbuf = wantedCall txdialbuf ∧
    ∀ store ∈ callStores others txdialbuf, store.1 < callStringSize

/-- **When the dial command is right**: there is a wait mark to take out, and no more than 26 characters
with it. -/
theorem callRight_iff (dial : DialString) : CallRight others dial.chars ↔
    dial.chars.getLast? = some waitMark ∧ dial.chars.length ≤ 26 := by
  obtain ⟨⟨chars, nonzero, fits⟩, nonempty⟩ := dial
  obtain ⟨digits, last, rfl⟩ : ∃ digits last, chars = digits ++ [last] :=
    ⟨chars.dropLast, chars.getLast nonempty, (List.dropLast_concat_getLast nonempty).symm⟩
  rw [List.length_append, List.length_singleton] at fits
  have string := callString_concat others nonzero (by omega)
  have stores := (callStores_concat others nonzero (by omega)).1
  show CallRight others (digits ++ [last]) ↔ (digits ++ [last]).getLast? = some waitMark ∧
    (digits ++ [last]).length ≤ 26
  have same : callString others (digits ++ [last]) = wantedCall (digits ++ [last]) ↔
      (digits ++ [last]).getLast? = some waitMark := by
    rw [string, gsmCallString, wantedCall]
    split
    · rename_i marked
      exact ⟨fun _ => marked, fun _ => rfl⟩
    · rename_i unmarked
      refine ⟨fun same => ?_, fun marked => absurd marked unmarked⟩
      have lengths := congrArg List.length same
      simp at lengths
  have room : (∀ store ∈ callStores others (digits ++ [last]), store.1 < callStringSize) ↔
      (digits ++ [last]).length ≤ 26 := by
    rw [stores, List.forall_mem_append, List.forall_mem_append, List.forall_mem_append, row_inside_iff,
      row_inside_iff, row_inside_iff, List.forall_mem_singleton]
    simp only [callStringSize, commandDial, List.length_append, List.length_cons, List.length_nil,
      List.append_eq_nil_iff, List.cons_ne_nil, and_false, false_or]
    omega
  exact and_congr same room

end Call

/-! ### The PIN command -/

/-- The size of `SIM_Enter_string`. -/
def simStringSize : Nat := 20

/-- `static char SIM_Enter_string[20]="at+cpin=\""`. -/
def simStart (others : Bytes) : Bytes := writeAll others (row 0 (commandPin ++ List.replicate 11 0))

/-- The stores of `wcfxs_init_one` into `SIM_Enter_string`. -/
def simStores (others : Bytes) (pin : List UInt8) : List Store :=
  let memory := simStart others
  let first := strcat memory 0 pin
  let memory := writeAll memory first
  first ++ strcat memory 0 [quote]

/-- The string that comes out. -/
def simEnterString (others : Bytes) (pin : List UInt8) : List UInt8 :=
  stringAt (writeAll (simStart others) (simStores others pin)) 0

theorem commandPin_nonzero : ∀ char ∈ commandPin, char ≠ 0 := by simp [commandPin]

section Pin

variable (others : Bytes) (pin : CText)

theorem simStart_holds : Holds (simStart others) 0 commandPin := by
  obtain ⟨inside, -⟩ := writeAll_row others 0 (commandPin ++ List.replicate 11 0)
  refine ⟨fun i low => ?_, ?_⟩
  · rw [simStart, inside i (by rw [List.length_append]; omega), List.getElem_append_left low]
  · rw [simStart, inside commandPin.length (by decide)]
    rfl

/-- **The stores of a PIN**, and the string they leave. -/
theorem simStores_eq :
    simStores others pin.chars = row 9 (pin.chars ++ [0]) ++ row (9 + pin.chars.length) [quote, 0] ∧
    Holds (writeAll (simStart others) (simStores others pin.chars)) 0 (commandPin ++ pin.chars ++ [quote]) := by
  have fits := pin.fits
  obtain ⟨placed, filled⟩ := (simStart_holds others).strcat commandPin_nonzero (by decide) pin.chars
  have nonzero : ∀ char ∈ commandPin ++ pin.chars, char ≠ 0 := fun char member =>
    (List.mem_append.mp member).elim (commandPin_nonzero char) (pin.nonzero char)
  have width : (commandPin ++ pin.chars).length = 9 + pin.chars.length := List.length_append
  obtain ⟨quoted, done⟩ := filled.strcat nonzero (by omega) [quote]
  refine ⟨?_, ?_⟩
  · rw [simStores, quoted, placed, width, Nat.zero_add, Nat.zero_add]
    rfl
  · rw [simStores, writeAll_append]
    exact done

/-- **The PIN command** is always the right string. -/
theorem simEnterString_eq : simEnterString others pin.chars = commandPin ++ pin.chars ++ [quote] := by
  have fits := pin.fits
  refine (simStores_eq others pin).2.stringAt (fun char member => ?_) ?_
  · rcases List.mem_append.mp member with front | back
    · exact (List.mem_append.mp front).elim (commandPin_nonzero char) (pin.nonzero char)
    · rw [List.mem_singleton.mp back]
      decide
  · rw [List.length_append, List.length_append]
    show 9 + pin.chars.length + 1 < _
    omega

/-- The PIN command is the right one, and was built inside its array. -/
def SimRight (pin : List UInt8) : Prop :=
  simEnterString others pin = commandPin ++ pin ++ [quote] ∧
    ∀ store ∈ simStores others pin, store.1 < simStringSize

/-- **When the PIN command is right**: for PINs of up to nine characters. -/
theorem simRight_iff : SimRight others pin.chars ↔ pin.chars.length ≤ 9 := by
  have fits := pin.fits
  rw [SimRight, and_iff_right (simEnterString_eq others pin), (simStores_eq others pin).1,
    List.forall_mem_append, row_inside_iff, row_inside_iff]
  simp only [simStringSize, List.length_append, List.length_cons, List.length_nil, List.append_eq_nil_iff,
    List.cons_ne_nil, and_false, false_or]
  omega

end Pin

/-! ### Both -/

/-- **When the command strings are built completely and in bounds.** -/
theorem commandStrings_iff (others : Bytes) :
    (∀ dial : DialString, CallRight others dial.chars ↔
      dial.chars.getLast? = some waitMark ∧ dial.chars.length ≤ 26) ∧
    ∀ pin : CText, SimRight others pin.chars ↔ pin.chars.length ≤ 9 :=
  ⟨callRight_iff others, simRight_iff others⟩

/-- Ten digits. -/
def tenDigits : DialString :=
  ⟨⟨[0x30, 0x38, 0x39, 0x39, 0x33, 0x35, 0x39, 0x35, 0x32, 0x39], by simp, by decide⟩, by decide⟩

/-- 26 digits and the wait mark. -/
def longNumber : DialString :=
  ⟨⟨List.replicate 26 0x30 ++ [waitMark], by simp [waitMark], by decide⟩, by decide⟩

/-- A number without a wait mark loses a digit, a long one runs over, and so does a PIN of ten. -/
theorem commandStrings_wrong :
    ¬ CallRight (fun _ => 0) tenDigits.chars ∧ ¬ CallRight (fun _ => 0) longNumber.chars ∧
      ¬ SimRight (fun _ => 0) tenDigits.chars := by
  rw [callRight_iff, callRight_iff, simRight_iff]
  decide

end Baps.Gsm
