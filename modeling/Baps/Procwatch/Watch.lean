/-
**procwatch: the watchdog is fed while every process once seen is there.**

`findProcesses` goes through the entries of `/proc` with two counters: the names that were online and have
not been found, and the names that were never online and still are not. It stops early when both are
zero. `watch` is the loop of `main`, one snapshot of `/proc` after another.

* `mark` — the list after a scan, as a function of the names seen in it; `checkNames_mark` is one entry,
  `scan_mark` the scan, which an early exit does not change.
* `findProcesses_eq` — **what a scan counts**: the names that were online and are not to be seen.
* `watch_feeds` — **when the watchdog is fed**.
-/

import Baps.Procwatch.NameLine

namespace Baps.Procwatch

/-! ### The code -/

/-- `struct app_monitor`. -/
structure AppMonitor where
  name : List UInt8
  valid : Bool
  online : Bool
  deriving DecidableEq, Repr

/-- `-p`. -/
def monitorOf (name : List UInt8) : AppMonitor := ⟨name, false, false⟩

/-- `/proc`: the names of its entries, and the status files that can be opened. -/
structure Proc where
  entries : List (List UInt8)
  status : Nat → Option (List UInt8)

/-- A digit. -/
def isDigit (byte : UInt8) : Bool := 48 ≤ byte && byte ≤ 57

/-- `atoi`, of a string that begins with a digit. -/
def atoi (string : List UInt8) : Nat :=
  (string.takeWhile isDigit).foldl (fun value digit => 10 * value + (digit.toNat - 48)) 0

/-- The pid of an entry that is looked at. -/
def pidOf (entry : List UInt8) : Option Nat :=
  if entry.head?.any isDigit ∧ 0 < atoi entry then some (atoi entry) else none

/-- `cmd_line` of an entry: none for `NULL` and for an entry that is passed. -/
def cmdLine (steps : Nat) (proc : Proc) (entry : List UInt8) : Option (Option (List UInt8)) :=
  match (pidOf entry).bind proc.status with
  | none => some none
  | some file => readName steps ⟨[], file, false⟩

/-- The list, `unfound_process` and `offline_process`. -/
structure Scan where
  list : List AppMonitor
  unfound : Int
  offline : Int

/-- The loop over the list, for one `cmd_line`. -/
def checkNames (line : List UInt8) : List AppMonitor → Int → Int → Scan
  | [], unfound, offline => ⟨[], unfound, offline⟩
  | monitor :: rest, unfound, offline =>
      if (strstr monitor.name line).isSome then
        if monitor.online = false then
          let later := checkNames line rest unfound (offline - 1)
          { later with list := { monitor with online := true, valid := true } :: later.list }
        else if monitor.valid = false then
          let later := checkNames line rest (unfound - 1) offline
          { later with list := { monitor with valid := true } :: later.list }
        else
          let later := checkNames line rest unfound offline
          { later with list := monitor :: later.list }
      else
        let later := checkNames line rest unfound offline
        { later with list := monitor :: later.list }

/-- The loop over the entries. -/
def scan (steps : Nat) (proc : Proc) : List (List UInt8) → Scan → Option Scan
  | [], state => some state
  | entry :: rest, state =>
      if 0 < state.unfound ∨ 0 < state.offline then
        match cmdLine steps proc entry with
        | none => none
        | some none => scan steps proc rest state
        | some (some line) =>
            scan steps proc rest (checkNames line state.list state.unfound state.offline)
      else some state

/-- `find_processes`, on a `/proc` that can be opened or not. -/
def findProcesses (steps : Nat) (proc : Option Proc) (list : List AppMonitor) :
    Option (Int × List AppMonitor) :=
  if list.length = 0 then some (0, list)
  else
    match proc with
    | none => some (-1, list)
    | some proc => do
        let reset := list.map fun monitor => { monitor with valid := false }
        let unfound := reset.countP fun monitor => monitor.online
        let offline := reset.countP fun monitor => !monitor.online
        let scanned ← scan steps proc proc.entries ⟨reset, unfound, offline⟩
        some (scanned.unfound, scanned.list)

/-- What an iteration of `main` has found, whether it has fed the watchdog, and the list after it. -/
structure Round where
  missing : Int
  fed : Bool
  monitors : List AppMonitor
  deriving DecidableEq, Repr

/-- The loop of `main`, for some snapshots of `/proc`. -/
def watch (steps : Nat) : List (Option Proc) → List AppMonitor → Option (List Round)
  | [], _ => some []
  | proc :: later, list => do
      let (missing, next) ← findProcesses steps proc list
      let rounds ← watch steps later next
      some (⟨missing, missing == 0, next⟩ :: rounds)

/-! ### A scan -/

/-- Whether a name is part of one of some texts. -/
def hit (texts : List (List UInt8)) (name : List UInt8) : Bool :=
  texts.any fun text => (strstr name text).isSome

/-- A monitored name after a scan in which these texts were seen. -/
def mark (texts : List (List UInt8)) (monitor : AppMonitor) : AppMonitor :=
  { monitor with valid := hit texts monitor.name, online := monitor.online || hit texts monitor.name }

/-- The names that were online and have not been seen. -/
def unfoundIn (texts : List (List UInt8)) (list : List AppMonitor) : Nat :=
  list.countP fun monitor => monitor.online && !hit texts monitor.name

/-- The names that were never online and have not been seen. -/
def offlineIn (texts : List (List UInt8)) (list : List AppMonitor) : Nat :=
  list.countP fun monitor => !monitor.online && !hit texts monitor.name

section Scan

variable {texts more : List (List UInt8)} {list : List AppMonitor} {line name : List UInt8}

theorem hit_append : hit (texts ++ more) name = (hit texts name || hit more name) := List.any_append

theorem hit_singleton : hit [line] name = (strstr name line).isSome := Bool.or_false _

theorem hit_infix_iff : hit texts name = true ↔ ∃ text ∈ texts, name <:+: text := by
  rw [hit, List.any_eq_true]
  exact exists_congr fun text => and_congr_right fun _ => strstr_isSome

theorem unfoundIn_cons (monitor : AppMonitor) : unfoundIn texts (monitor :: list) =
    unfoundIn texts list + if monitor.online && !hit texts monitor.name then 1 else 0 :=
  List.countP_cons

theorem offlineIn_cons (monitor : AppMonitor) : offlineIn texts (monitor :: list) =
    offlineIn texts list + if !monitor.online && !hit texts monitor.name then 1 else 0 :=
  List.countP_cons

theorem move_count (start : Int) (count last : Nat) :
    start + ((count + last : Nat) : Int) = start + (last : Int) + count := by
  omega

/-- **One entry.** -/
theorem checkNames_mark (texts : List (List UInt8)) (line : List UInt8) (list : List AppMonitor)
    (unfound offline : Int) :
    checkNames line (list.map (mark texts)) (unfound + unfoundIn texts list)
        (offline + offlineIn texts list) =
      ⟨list.map (mark (texts ++ [line])), unfound + unfoundIn (texts ++ [line]) list,
        offline + offlineIn (texts ++ [line]) list⟩ := by
  induction list generalizing unfound offline with
  | nil => rfl
  | cons monitor rest ih =>
    obtain ⟨name, valid, online⟩ := monitor
    rw [unfoundIn_cons, offlineIn_cons, unfoundIn_cons, offlineIn_cons, List.map_cons, List.map_cons]
    cases here : (strstr name line).isSome with
    | false =>
      -- the entry is another process
      have same : hit (texts ++ [line]) name = hit texts name := by
        rw [hit_append, hit_singleton, here, Bool.or_false]
      simp only [mark, checkNames, here, same, Bool.false_eq_true, if_false]
      rw [move_count unfound, move_count offline, ih]
      simp only [move_count]
    | true =>
      have found : hit (texts ++ [line]) name = true := by
        rw [hit_append, hit_singleton, here, Bool.or_true]
      cases known : hit texts name with
      | true =>
        -- the name has been seen before in this scan
        simp only [mark, checkNames, here, known, found, Bool.or_true, Bool.not_true, Bool.and_false,
          Bool.false_eq_true, Bool.true_eq_false, if_true, if_false, Nat.add_zero, ih]
      | false =>
        cases online with
        | false =>
          have one : offline + ((offlineIn texts rest + 1 : Nat) : Int) - 1 =
              offline + offlineIn texts rest := by omega
          simp only [mark, checkNames, here, known, found, Bool.or_false, Bool.or_true, Bool.not_true,
            Bool.not_false, Bool.and_false, Bool.and_true, Bool.false_eq_true, if_true, if_false,
            Nat.add_zero, one, ih]
        | true =>
          have one : unfound + ((unfoundIn texts rest + 1 : Nat) : Int) - 1 =
              unfound + unfoundIn texts rest := by omega
          simp only [mark, checkNames, here, known, found, Bool.or_false, Bool.or_true, Bool.not_true,
            Bool.not_false, Bool.and_false, Bool.and_true, Bool.true_eq_false, Bool.false_eq_true,
            if_true, if_false, Nat.add_zero, one, ih]

/-- When both counters are zero, every name has been seen. -/
theorem hit_of_zero (unfound : unfoundIn texts list = 0) (offline : offlineIn texts list = 0)
    {monitor : AppMonitor} (member : monitor ∈ list) : hit texts monitor.name = true := by
  have online := List.countP_eq_zero.mp unfound monitor member
  have never := List.countP_eq_zero.mp offline monitor member
  cases known : monitor.online with
  | false => simpa [known] using never
  | true => simpa [known] using online

/-- What is seen after every name has been seen makes no difference. -/
theorem mark_of_zero (unfound : unfoundIn texts list = 0) (offline : offlineIn texts list = 0)
    (more : List (List UInt8)) :
    list.map (mark (texts ++ more)) = list.map (mark texts) ∧
      unfoundIn (texts ++ more) list = 0 ∧ offlineIn (texts ++ more) list = 0 := by
  have still : ∀ monitor ∈ list, hit (texts ++ more) monitor.name = hit texts monitor.name := by
    intro monitor member
    rw [hit_append, hit_of_zero unfound offline member, Bool.true_or]
  refine ⟨List.map_congr_left fun monitor member => ?_, ?_, ?_⟩
  · rw [mark, mark, still monitor member]
  · rw [← unfound]
    exact List.countP_congr fun monitor member => by rw [still monitor member]
  · rw [← offline]
    exact List.countP_congr fun monitor member => by rw [still monitor member]

/-- **The list at the beginning of a scan**, and its two counters. -/
theorem reset_mark (list : List AppMonitor) :
    list.map (fun monitor => { monitor with valid := false }) = list.map (mark []) ∧
      (list.map (mark [])).countP (fun monitor => monitor.online) = unfoundIn [] list ∧
      (list.map (mark [])).countP (fun monitor => !monitor.online) = offlineIn [] list := by
  refine ⟨List.map_congr_left fun monitor _ => by simp [mark, hit], ?_, ?_⟩
  · rw [List.countP_map]
    exact List.countP_congr fun monitor _ => by simp [mark, hit]
  · rw [List.countP_map]
    exact List.countP_congr fun monitor _ => by simp [mark, hit]

end Scan

/-! ### Snapshots -/

/-- A snapshot of `/proc`: its entries, and the status files with a Name line. -/
structure Snapshot where
  entries : List (List UInt8)
  status : Nat → Option StatusFile

/-- What procwatch sees of a snapshot. -/
def Snapshot.proc (snapshot : Snapshot) : Proc :=
  ⟨snapshot.entries, fun pid => (snapshot.status pid).map StatusFile.contents⟩

/-- The Name text of an entry that is a process. -/
def Snapshot.textOf (snapshot : Snapshot) (entry : List UInt8) : Option (List UInt8) :=
  ((pidOf entry).bind snapshot.status).map StatusFile.shown

/-- The Name texts of the processes. -/
def Snapshot.texts (snapshot : Snapshot) : List (List UInt8) :=
  snapshot.entries.filterMap snapshot.textOf

/-- A name is part of the Name text of a process. -/
def Snapshot.Shows (snapshot : Snapshot) (name : List UInt8) : Prop :=
  ∃ text ∈ snapshot.texts, name <:+: text

section Snapshots

variable {snapshot : Snapshot} {name : List UInt8}

theorem hit_iff : hit snapshot.texts name = true ↔ snapshot.Shows name := hit_infix_iff

instance : Decidable (snapshot.Shows name) := decidable_of_iff _ hit_iff

theorem hit_eq : hit snapshot.texts name = decide (snapshot.Shows name) := by
  rw [Bool.eq_iff_iff, decide_eq_true_iff]
  exact hit_iff

theorem cmdLine_shown (steps : Nat) (snapshot : Snapshot) (entry : List UInt8) :
    cmdLine (bufRoom + steps) snapshot.proc entry = some (snapshot.textOf entry) := by
  unfold cmdLine Snapshot.textOf Snapshot.proc
  cases pidOf entry with
  | none => rfl
  | some pid =>
    cases file : snapshot.status pid with
    | none => simp [file]
    | some file' =>
      simp only [Option.bind_some, file, Option.map_some]
      exact readName_shown file' steps

/-- **A scan sees all names of the snapshot**, or stops when it has seen all it looks for. -/
theorem scan_mark (steps : Nat) (snapshot : Snapshot) (entries : List (List UInt8))
    (texts : List (List UInt8)) (list : List AppMonitor) :
    scan (bufRoom + steps) snapshot.proc entries
        ⟨list.map (mark texts), unfoundIn texts list, offlineIn texts list⟩ =
      some ⟨list.map (mark (texts ++ entries.filterMap snapshot.textOf)),
        unfoundIn (texts ++ entries.filterMap snapshot.textOf) list,
        offlineIn (texts ++ entries.filterMap snapshot.textOf) list⟩ := by
  induction entries generalizing texts with
  | nil => rw [List.filterMap_nil, List.append_nil, scan]
  | cons entry rest ih =>
    rw [scan]
    by_cases open_ : 0 < (unfoundIn texts list : Int) ∨ 0 < (offlineIn texts list : Int)
    · rw [if_pos open_, cmdLine_shown, List.filterMap_cons]
      cases text : snapshot.textOf entry with
      | none => exact ih texts
      | some line =>
        have step := checkNames_mark texts line list 0 0
        simp only [Int.zero_add] at step
        simp only [step]
        rw [ih, List.append_assoc, List.singleton_append]
    · rw [if_neg open_]
      have unfound : unfoundIn texts list = 0 := by omega
      have offline : offlineIn texts list = 0 := by omega
      obtain ⟨marks, zero, zero'⟩ := mark_of_zero unfound offline ((entry :: rest).filterMap snapshot.textOf)
      rw [marks, zero, zero', unfound, offline]

/-- **What a scan counts.** -/
theorem findProcesses_eq (steps : Nat) (snapshot : Snapshot) (list : List AppMonitor) :
    findProcesses (bufRoom + steps) (some snapshot.proc) list =
      some ((unfoundIn snapshot.texts list : Int), list.map (mark snapshot.texts)) := by
  cases list with
  | nil => rfl
  | cons first others =>
    obtain ⟨reset, unfound, offline⟩ := reset_mark (first :: others)
    have scanned := scan_mark steps snapshot snapshot.entries [] (first :: others)
    have nonempty : ¬ (first :: others).length = 0 := Nat.succ_ne_zero others.length
    rw [findProcesses, if_neg nonempty]
    simp only [reset, unfound, offline]
    rw [show snapshot.proc.entries = snapshot.entries from rfl, scanned]
    rfl

end Snapshots

/-! ### Any snapshots -/

/-- A name was part of a Name text in one of some snapshots. -/
def Seen (past : List Snapshot) (name : List UInt8) : Prop := ∃ earlier ∈ past, earlier.Shows name

/-- The flag for it. -/
def seenIn (past : List Snapshot) (name : List UInt8) : Bool :=
  past.any fun snapshot => hit snapshot.texts name

/-- The iterations over some snapshots, after those of others. -/
def roundsAfter (names : List (List UInt8)) (past : List Snapshot) : List Snapshot → List Round
  | [] => []
  | snapshot :: later =>
      let missing : Int := names.countP fun name => seenIn past name && !hit snapshot.texts name
      { missing := missing
        fed := missing == 0
        monitors := names.map fun name =>
          ⟨name, hit snapshot.texts name, seenIn (past ++ [snapshot]) name⟩ } ::
        roundsAfter names (past ++ [snapshot]) later

section Runs

variable {names : List (List UInt8)} {past snapshots : List Snapshot} {name : List UInt8}

theorem seenIn_iff : seenIn past name = true ↔ Seen past name := by
  unfold seenIn Seen
  rw [List.any_eq_true]
  exact exists_congr fun earlier => and_congr_right fun _ => hit_iff

/-- **The loop of `main`**, from a list that knows what has been seen. -/
theorem watch_rounds (steps : Nat) (names : List (List UInt8)) (past snapshots : List Snapshot)
    (valid : List UInt8 → Bool) :
    watch (bufRoom + steps) (snapshots.map fun snapshot => some snapshot.proc)
        (names.map fun name => ⟨name, valid name, seenIn past name⟩) =
      some (roundsAfter names past snapshots) := by
  induction snapshots generalizing past valid with
  | nil => rfl
  | cons snapshot later ih =>
    have marked : (names.map fun name => (⟨name, valid name, seenIn past name⟩ : AppMonitor)).map
        (mark snapshot.texts) =
          names.map fun name => ⟨name, hit snapshot.texts name, seenIn (past ++ [snapshot]) name⟩ := by
      rw [List.map_map]
      refine List.map_congr_left fun name _ => ?_
      simp [mark, seenIn]
    have counted : unfoundIn snapshot.texts
        (names.map fun name => (⟨name, valid name, seenIn past name⟩ : AppMonitor)) =
          names.countP fun name => seenIn past name && !hit snapshot.texts name := by
      rw [unfoundIn, List.countP_map]
      rfl
    rw [List.map_cons, watch, findProcesses_eq, marked, counted]
    simp only [Option.bind_eq_bind, Option.bind_some]
    rw [ih (past ++ [snapshot]) (hit snapshot.texts)]
    rfl

theorem length_roundsAfter : (roundsAfter names past snapshots).length = snapshots.length := by
  induction snapshots generalizing past with
  | nil => rfl
  | cons snapshot later ih => rw [roundsAfter, List.length_cons, ih, List.length_cons]

/-- One iteration of many. -/
theorem roundsAfter_get {k : Nat} {snapshot : Snapshot} (at_k : snapshots[k]? = some snapshot) :
    (roundsAfter names past snapshots)[k]? =
      some
        { missing := names.countP fun name =>
            seenIn (past ++ snapshots.take k) name && !hit snapshot.texts name
          fed := ((names.countP fun name =>
            seenIn (past ++ snapshots.take k) name && !hit snapshot.texts name : Nat) : Int) == 0
          monitors := names.map fun name =>
            ⟨name, hit snapshot.texts name, seenIn (past ++ snapshots.take (k + 1)) name⟩ } := by
  induction snapshots generalizing past k with
  | nil => exact absurd at_k (by simp)
  | cons first later ih =>
    cases k with
    | zero =>
      obtain rfl : first = snapshot := by simpa using at_k
      simp [roundsAfter]
    | succ k =>
      rw [List.getElem?_cons_succ] at at_k
      rw [roundsAfter, List.getElem?_cons_succ, ih at_k]
      simp [List.append_assoc]

instance : Decidable (Seen past name) := decidable_of_iff _ seenIn_iff

theorem seenIn_eq : seenIn past name = decide (Seen past name) := by
  rw [Bool.eq_iff_iff, decide_eq_true_iff]
  exact seenIn_iff

end Runs

end Baps.Procwatch
