/-
**C strings in flat memory, and the stores that build them.**

A C string is a row of bytes with a zero behind it. `strcpy` and `strcat` are given as the stores they
make, so that one can ask where they write as well as what they leave; they check no bounds.

* `writeAll_row` — what a row of stores leaves at every address.
* `Holds.strcpy`, `Holds.strcat`, `Holds.cut` — **what the functions make of a string**.
* `row_inside_iff` — when a row of stores stays below an address.
-/

import Baps.Memory.Flat

namespace Baps.Memory

/-! ### Rows of stores -/

/-- A store of one byte. -/
abbrev Store := Nat × UInt8

/-- Memory after stores, in order. -/
def writeAll (memory : Bytes) (stores : List Store) : Bytes :=
  stores.foldl (fun memory store => write memory store.1 store.2) memory

/-- The stores of bytes at successive addresses. -/
def row (address : Nat) : List UInt8 → List Store
  | [] => []
  | byte :: rest => (address, byte) :: row (address + 1) rest

section Rows

variable {memory : Bytes} {address : Nat}

theorem writeAll_append (memory : Bytes) (first second : List Store) :
    writeAll memory (first ++ second) = writeAll (writeAll memory first) second := List.foldl_append

theorem row_fst {bytes : List UInt8} {store : Store} (member : store ∈ row address bytes) :
    address ≤ store.1 ∧ store.1 < address + bytes.length := by
  induction bytes generalizing address with
  | nil => exact absurd member List.not_mem_nil
  | cons byte rest ih =>
    rw [List.length_cons]
    rcases List.mem_cons.mp member with rfl | later
    · exact ⟨le_rfl, by show address < _; omega⟩
    · have bounds := ih later
      omega

theorem last_mem_row {bytes : List UInt8} (some : bytes ≠ []) :
    ∃ store ∈ row address bytes, store.1 + 1 = address + bytes.length := by
  induction bytes generalizing address with
  | nil => exact absurd rfl some
  | cons byte rest ih =>
    cases rest with
    | nil => exact ⟨(address, byte), List.mem_cons_self, rfl⟩
    | cons next more =>
      obtain ⟨store, member, place⟩ := @ih (address + 1) (List.cons_ne_nil next more)
      refine ⟨store, List.mem_cons_of_mem _ member, ?_⟩
      rw [List.length_cons]
      omega

/-- **When a row stays below an address.** -/
theorem row_inside_iff {bytes : List UInt8} {size : Nat} :
    (∀ store ∈ row address bytes, store.1 < size) ↔ bytes = [] ∨ address + bytes.length ≤ size := by
  constructor
  · intro inside
    by_cases none : bytes = []
    · exact .inl none
    · obtain ⟨store, member, place⟩ := @last_mem_row address bytes none
      have last := inside store member
      exact .inr (by omega)
  · rintro (rfl | room) store member
    · exact absurd member List.not_mem_nil
    · have bounds := row_fst member
      omega

theorem writeAll_of_ne {stores : List Store} {a : Nat} (apart : ∀ store ∈ stores, store.1 ≠ a) :
    writeAll memory stores a = memory a := by
  induction stores generalizing memory with
  | nil => rfl
  | cons store rest ih =>
    show writeAll (write memory store.1 store.2) rest a = memory a
    rw [ih fun other member => apart other (List.mem_cons_of_mem _ member)]
    exact write_of_ne (apart store List.mem_cons_self).symm

/-- **What a row leaves**: its bytes, and everything else as it was. -/
theorem writeAll_row (memory : Bytes) (address : Nat) (bytes : List UInt8) :
    (∀ i (inside : i < bytes.length), writeAll memory (row address bytes) (address + i) = bytes[i]) ∧
    ∀ a, (a < address ∨ address + bytes.length ≤ a) → writeAll memory (row address bytes) a = memory a := by
  refine ⟨?_, fun a outside => writeAll_of_ne fun store member => ?_⟩
  · induction bytes generalizing memory address with
    | nil => exact fun i inside => absurd inside (Nat.not_lt_zero i)
    | cons byte rest ih =>
      intro i inside
      show writeAll (write memory address byte) (row (address + 1) rest) (address + i) = _
      cases i with
      | zero =>
        rw [writeAll_of_ne fun store member => by have := row_fst member; omega]
        exact write_self _ _ _
      | succ i =>
        rw [show address + (i + 1) = address + 1 + i by omega,
          ih (write memory address byte) (address + 1) i (by simpa using inside)]
        rfl
  · have bounds := row_fst member
    omega

end Rows

/-! ### Strings -/

/-- A C string at an address: its characters, and a zero behind them. -/
structure Holds (memory : Bytes) (address : Nat) (text : List UInt8) : Prop where
  chars : ∀ i (inside : i < text.length), memory (address + i) = text[i]
  nul : memory (address + text.length) = 0

/-- The bytes before the first zero, among the next `room`. -/
def scan (memory : Bytes) : Nat → Nat → Nat
  | _, 0 => 0
  | address, room + 1 => if memory address = 0 then 0 else scan memory (address + 1) room + 1

/-- `strlen`, in 32-bit memory. -/
def strlen (memory : Bytes) (address : Nat) : Nat := scan memory address 4294967296

/-- The string at an address. -/
def stringAt (memory : Bytes) (address : Nat) : List UInt8 :=
  (List.range (strlen memory address)).map fun i => memory (address + i)

/-- The stores of `strcpy`. -/
def strcpy (address : Nat) (text : List UInt8) : List Store := row address (text ++ [0])

/-- The stores of `strcat`. -/
def strcat (memory : Bytes) (address : Nat) (text : List UInt8) : List Store :=
  row (address + strlen memory address) (text ++ [0])

namespace Holds

variable {memory : Bytes} {address : Nat} {text : List UInt8}

theorem scan {room : Nat} (holds : Holds memory address text) (nonzero : ∀ char ∈ text, char ≠ 0)
    (fits : text.length < room) : Memory.scan memory address room = text.length := by
  induction text generalizing address room with
  | nil =>
    obtain ⟨room, rfl⟩ : ∃ more, room = more + 1 := ⟨room - 1, by simp only [List.length_nil] at fits; omega⟩
    exact if_pos holds.nul
  | cons char rest ih =>
    obtain ⟨room, rfl⟩ : ∃ more, room = more + 1 := ⟨room - 1, by omega⟩
    have first : memory address = char := holds.chars 0 (Nat.zero_lt_succ _)
    have tail : Holds memory (address + 1) rest := by
      refine ⟨fun i inside => ?_, ?_⟩
      · have char := holds.chars (i + 1) (by simpa using inside)
        rw [show address + 1 + i = address + (i + 1) by omega, char]
        rfl
      · have nul := holds.nul
        rwa [List.length_cons, show address + (rest.length + 1) = address + 1 + rest.length by omega] at nul
    rw [Memory.scan, first, if_neg (nonzero char List.mem_cons_self),
      ih tail (fun other member => nonzero other (List.mem_cons_of_mem _ member)) (by simpa using fits)]
    rfl

theorem strlen (holds : Holds memory address text) (nonzero : ∀ char ∈ text, char ≠ 0)
    (fits : text.length < 4294967296) : Memory.strlen memory address = text.length :=
  holds.scan nonzero fits

theorem stringAt (holds : Holds memory address text) (nonzero : ∀ char ∈ text, char ≠ 0)
    (fits : text.length < 4294967296) : Memory.stringAt memory address = text := by
  rw [Memory.stringAt, holds.strlen nonzero fits]
  exact List.ext_getElem (by simp) fun i _ inside => by simp [holds.chars i inside]

/-- **`strcpy`.** -/
theorem strcpy (memory : Bytes) (address : Nat) (text : List UInt8) :
    Holds (writeAll memory (strcpy address text)) address text := by
  obtain ⟨inside, -⟩ := writeAll_row memory address (text ++ [0])
  refine ⟨fun i low => ?_, ?_⟩
  · rw [Memory.strcpy, inside i (by rw [List.length_append]; omega), List.getElem_append_left low]
  · rw [Memory.strcpy, inside text.length (by simp)]
    simp

/-- **`strcat`**: where it writes, and the string it leaves. -/
theorem strcat (holds : Holds memory address text) (nonzero : ∀ char ∈ text, char ≠ 0)
    (fits : text.length < 4294967296) (more : List UInt8) :
    strcat memory address more = row (address + text.length) (more ++ [0]) ∧
      Holds (writeAll memory (strcat memory address more)) address (text ++ more) := by
  have place : Memory.strcat memory address more = row (address + text.length) (more ++ [0]) := by
    rw [Memory.strcat, holds.strlen nonzero fits]
  refine ⟨place, ?_⟩
  rw [place]
  obtain ⟨inside, outside⟩ := writeAll_row memory (address + text.length) (more ++ [0])
  refine ⟨fun i low => ?_, ?_⟩
  · rw [List.length_append] at low
    by_cases front : i < text.length
    · rw [outside _ (.inl (by omega)), holds.chars i front, List.getElem_append_left front]
    · rw [show address + i = address + text.length + (i - text.length) by omega,
        inside (i - text.length) (by rw [List.length_append]; omega),
        List.getElem_append_left (by omega), List.getElem_append_right (by omega)]
  · rw [List.length_append, ← Nat.add_assoc, inside more.length (by simp)]
    simp

/-- **A zero in place of a character** ends the string there. -/
theorem cut {front rest : List UInt8} (holds : Holds memory address (front ++ rest)) :
    Holds (write memory (address + front.length) 0) address front := by
  refine ⟨fun i low => ?_, write_self _ _ _⟩
  rw [write_of_ne (by omega), holds.chars i (by rw [List.length_append]; omega),
    List.getElem_append_left low]

end Holds

end Baps.Memory
