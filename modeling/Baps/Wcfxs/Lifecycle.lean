/-
**The life of `struct wcfxs`: loading the module, its uses, and its removal.**

`wcfxs_init_one` allocates the driver's structure and publishes it in five places: the table `ifaces`,
the variable `devs`, a zaptel span, a `/proc` entry and the SPORT interrupt. Its failure exits free the
structure and take back the span, and nothing else; `wcfxs_init` then returns 0, so the module stays
loaded. `wcfxs_release` frees the structure without taking it out of `ifaces`.

* `lifecycle_iff` — **when nothing points at freed memory, in every state of every run**: if nothing was
  allocated, or start-up succeeds and the module is not removed.
-/

import Mathlib.Data.List.FinRange

namespace Baps.Wcfxs.Lifecycle

/-! ### The module -/

/-- The module's variables and what it has registered with the kernel; which structures have been
freed, and whether one was used after that. `span` is the structure whose span zaptel knows, `proc` the
entry `/proc/wcfxs`, `sport` the interrupt. -/
structure Module where
  loaded : Bool
  initOk : Bool
  initdIfaces : Bool
  devs : Option Nat
  ifaces : Fin 128 → Option Nat
  span : Option Nat
  proc : Bool
  sport : Bool
  freed : Nat → Bool
  fault : Bool

/-- The module before `wcfxs_init`: its variables are zero. -/
def unloaded : Module :=
  ⟨false, false, false, none, fun _ => none, none, false, false, fun _ => false, false⟩

/-- How the steps of start-up end: whether `opermode` is known, what `kmalloc` returns, whether
`zt_register` succeeds, and whether a card came up (or `timingonly` is set). -/
structure Outcomes where
  opermode : Bool
  kmalloc : Option Nat
  registered : Bool
  cards : Bool

/-- An access through a pointer. -/
def Module.deref (wc : Nat) (module : Module) : Module :=
  { module with fault := module.fault || module.freed wc }

/-- `kfree`. -/
def Module.kfree (wc : Nat) (module : Module) : Module :=
  { module with
    fault := module.fault || module.freed wc
    freed := Function.update module.freed wc true }

/-- An access through `devs`; through `NULL` it is an oops. -/
def Module.derefDevs (module : Module) : Module :=
  match module.devs with
  | some wc => module.deref wc
  | none => { module with fault := true }

/-! ### Start-up -/

/-- `wcfxs_initialize`: fill in the span and the channels, and register the span. -/
def wcfxsInitialize (registered : Bool) (wc : Nat) (module : Module) : Int × Module :=
  let module := module.deref wc
  if ¬ registered then (-1, module) else (0, { module with span := some wc })

/-- `zt_unregister(&wc->span)`. -/
def ztUnregister (wc : Nat) (module : Module) : Module := { module.deref wc with span := none }

/-- `wcfxs_hardware_init`: the `/proc` entry, the interrupt, and the cards. -/
def wcfxsHardwareInit (cards : Bool) (wc : Nat) (module : Module) : Int × Module :=
  let module := { module with proc := true }
  let module := { module with sport := true }
  let module := module.deref wc
  if ¬ cards then (-1, { module with sport := false }) else (0, module)

/-- The first free entry of `ifaces`. -/
def Module.freeIface (module : Module) : Option (Fin 128) :=
  Fin.find? fun x => module.ifaces x = none

/-- `wcfxs_init_one` once it has a structure. -/
def initStructure (outcomes : Outcomes) (x : Fin 128) (wc : Nat) (module : Module) : Int × Module :=
  let module := { module with ifaces := Function.update module.ifaces x (some wc) }
  let module := module.deref wc
  let module := { module with devs := some wc }
  let module := module.deref wc
  let result := wcfxsInitialize outcomes.registered wc module
  if result.1 ≠ 0 then (-5, result.2.kfree wc)
  else
    let result := wcfxsHardwareInit outcomes.cards wc result.2
    if result.1 ≠ 0 then (-5, (ztUnregister wc result.2).kfree wc)
    else (0, Module.deref wc { result.2 with initOk := true })

/-- `wcfxs_init_one`. `memset` of `ifaces` is behind a flag that only the same branch sets. -/
def wcfxsInitOne (outcomes : Outcomes) (module : Module) : Int × Module :=
  let module := { module with initOk := false }
  let module := if module.initdIfaces then
      { module with ifaces := fun _ => none, initdIfaces := true }
    else module
  match module.freeIface with
  | none => (-5, module)
  | some x =>
    match outcomes.kmalloc with
    | none => (-12, module)
    | some wc => initStructure outcomes x wc module

/-- `wcfxs_init`: the result of `wcfxs_init_one` is discarded. -/
def wcfxsInit (outcomes : Outcomes) (module : Module) : Int × Module :=
  if ¬ outcomes.opermode then (-19, module) else (0, (wcfxsInitOne outcomes module).2)

/-- Loading the module: it stays if `wcfxs_init` returns 0. -/
def load (outcomes : Outcomes) : Module :=
  let result := wcfxsInit outcomes unloaded
  { result.2 with loaded := result.1 = 0 }

/-! ### Afterwards -/

/-- `wcfxs_proc_read`. -/
def wcfxsProcRead (module : Module) : Module := module.derefDevs

/-- `wcfxs_release`. -/
def wcfxsRelease (wc : Option Nat) (module : Module) : Module :=
  let module := if module.initOk then
      let module := { module with sport := false }
      match wc with
      | some wc => (ztUnregister wc module).kfree wc
      | none => { module with fault := true }
    else module
  { module with proc := false }

/-- `wcfxs_cleanup`. -/
def wcfxsCleanup (module : Module) : Module := wcfxsRelease module.devs module

/-- What can happen to the module: a read of `/proc/wcfxs`, the SPORT interrupt, a call of zaptel into
the span, and the removal of the module. -/
inductive Event
  | procRead
  | interrupt
  | channel
  | remove
  deriving DecidableEq, Repr

/-- One event; it happens only while what it goes through is registered. -/
def step (module : Module) : Event → Module
  | .procRead => if module.loaded ∧ module.proc then wcfxsProcRead module else module
  | .interrupt => if module.sport then module.derefDevs else module
  | .channel =>
    match module.span with
    | some wc => module.deref wc
    | none => module
  | .remove => if module.loaded then { wcfxsCleanup module with loaded := false } else module

/-- The states of a run, from the loading of the module on. -/
def states (outcomes : Outcomes) (events : List Event) : List Module :=
  events.scanl step (load outcomes)

/-- Nothing has been used after it was freed, and `ifaces` designates nothing freed. -/
structure Clean (module : Module) : Prop where
  fault : module.fault = false
  ifaces : ∀ x wc, module.ifaces x = some wc → module.freed wc = false

/-! ### The two good lives -/

/-- Nothing was allocated. -/
structure Empty (module : Module) : Prop where
  fault : module.fault = false
  initOk : module.initOk = false
  ifaces : ∀ x, module.ifaces x = none
  span : module.span = none
  proc : module.proc = false
  sport : module.sport = false

/-- The structure is allocated, and all that is registered leads to it. -/
structure Running (wc : Nat) (module : Module) : Prop where
  fault : module.fault = false
  loaded : module.loaded = true
  initOk : module.initOk = true
  devs : module.devs = some wc
  ifaces : ∃ x, module.ifaces x = some wc
  only : ∀ x other, module.ifaces x = some other → other = wc
  span : module.span = some wc
  live : module.freed wc = false

section Lives

variable {module : Module} {wc : Nat}

theorem Empty.clean (empty : Empty module) : Clean module := by
  refine ⟨empty.fault, fun x wc entry => ?_⟩
  rw [empty.ifaces x] at entry
  cases entry

theorem Running.clean (running : Running wc module) : Clean module := by
  refine ⟨running.fault, fun x other entry => ?_⟩
  rw [running.only x other entry]
  exact running.live

/-- An access to a live structure changes nothing. -/
theorem deref_live (fault : module.fault = false) (live : module.freed wc = false) :
    module.deref wc = module := by
  unfold Module.deref
  rw [live, fault]
  cases module
  subst fault
  rfl

theorem Running.derefDevs (running : Running wc module) : module.derefDevs = module := by
  unfold Module.derefDevs
  rw [running.devs]
  exact deref_live running.fault running.live

/-- **One event while nothing is allocated.** -/
theorem Empty.step (empty : Empty module) (event : Event) : Empty (step module event) := by
  cases event with
  | procRead =>
    show Empty (if module.loaded ∧ module.proc then wcfxsProcRead module else module)
    rw [if_neg fun both => by simp [empty.proc] at both]
    exact empty
  | interrupt =>
    show Empty (if module.sport then module.derefDevs else module)
    rw [if_neg (by simp [empty.sport])]
    exact empty
  | channel =>
    show Empty (match module.span with
      | some wc => module.deref wc
      | none => module)
    rw [empty.span]
    exact empty
  | remove =>
    show Empty (if module.loaded then { wcfxsCleanup module with loaded := false } else module)
    split
    · unfold wcfxsCleanup wcfxsRelease
      rw [empty.initOk]
      exact ⟨empty.fault, empty.initOk, empty.ifaces, empty.span, rfl, empty.sport⟩
    · exact empty

/-- **One event while the structure is allocated.** -/
theorem Running.step (running : Running wc module) {event : Event} (stays : event ≠ .remove) :
    step module event = module := by
  cases event with
  | procRead =>
    show (if module.loaded ∧ module.proc then module.derefDevs else module) = module
    rw [running.derefDevs, ite_self]
  | interrupt =>
    show (if module.sport then module.derefDevs else module) = module
    rw [running.derefDevs, ite_self]
  | channel =>
    show (match module.span with
      | some wc => module.deref wc
      | none => module) = module
    rw [running.span]
    exact deref_live running.fault running.live
  | remove => exact absurd rfl stays

/-- Removal frees the structure and leaves it in `ifaces`. -/
theorem Running.remove (running : Running wc module) : ¬ Clean (Lifecycle.step module .remove) := by
  rintro ⟨-, entries⟩
  obtain ⟨x, entry⟩ := running.ifaces
  have freed : (Lifecycle.step module .remove).freed wc = true := by
    simp [Lifecycle.step, wcfxsCleanup, wcfxsRelease, running.loaded, running.initOk, running.devs,
      Module.kfree, ztUnregister, Module.deref]
  have kept : (Lifecycle.step module .remove).ifaces = module.ifaces := by
    simp [Lifecycle.step, wcfxsCleanup, wcfxsRelease, running.loaded, running.initOk, running.devs,
      Module.kfree, ztUnregister, Module.deref]
  have live := entries x wc (by rw [kept, entry])
  rw [freed] at live
  cases live

/-- Every run while nothing is allocated. -/
theorem Empty.run (empty : Empty module) (events : List Event) :
    ∀ state ∈ events.scanl Lifecycle.step module, Clean state := by
  induction events generalizing module with
  | nil =>
    intro state member
    rw [List.scanl_nil, List.mem_singleton] at member
    exact member ▸ empty.clean
  | cons event rest ih =>
    intro state member
    rw [List.scanl_cons] at member
    rcases List.mem_cons.mp member with rfl | later
    · exact empty.clean
    · exact ih (empty.step event) state later

/-- Every run while the structure is allocated: it is clean up to the removal. -/
theorem Running.run (running : Running wc module) (events : List Event) :
    (∀ state ∈ events.scanl Lifecycle.step module, Clean state) ↔ .remove ∉ events := by
  induction events with
  | nil =>
    refine iff_of_true (fun state member => ?_) List.not_mem_nil
    rw [List.scanl_nil, List.mem_singleton] at member
    exact member ▸ running.clean
  | cons event rest ih =>
    rw [List.scanl_cons, List.forall_mem_cons, List.mem_cons, not_or]
    by_cases same : event = .remove
    · subst same
      refine iff_of_false (fun all => running.remove (all.2 _ ?_)) fun both => both.1 rfl
      cases rest with
      | nil => exact List.mem_singleton.mpr rfl
      | cons next others =>
        rw [List.scanl_cons]
        exact List.mem_cons_self
    · rw [running.step same, ih]
      exact ⟨fun both => ⟨fun equal => same equal.symm, both.2⟩, fun both => ⟨running.clean, both.2⟩⟩

end Lives

/-! ### Start-up -/

section Startup

variable {outcomes : Outcomes} {wc : Nat}

theorem freeIface_empty {module : Module} (empty : ∀ x, module.ifaces x = none) :
    module.freeIface = some 0 := by
  unfold Module.freeIface
  rw [Fin.find?_eq_some_iff]
  exact ⟨by simp [empty], fun j less => absurd less (Nat.not_lt_zero _)⟩

theorem initOne_unloaded : wcfxsInitOne outcomes unloaded =
    match outcomes.kmalloc with
    | none => (-12, unloaded)
    | some wc => initStructure outcomes 0 wc unloaded := by
  unfold wcfxsInitOne
  simp only
  rw [freeIface_empty (by simp [unloaded])]
  cases outcomes.kmalloc <;> rfl

/-- The module once the structure is allocated and published in `ifaces` and `devs`. -/
def allocated (wc : Nat) : Module :=
  { unloaded with ifaces := Function.update unloaded.ifaces 0 (some wc), devs := some wc }

theorem allocated_first (wc : Nat) : (allocated wc).ifaces 0 = some wc := by
  simp [allocated]

theorem allocated_only {x : Fin 128} {other : Nat} (entry : (allocated wc).ifaces x = some other) :
    other = wc := by
  by_cases same : x = 0
  · subst same
    rw [allocated_first] at entry
    exact (Option.some.inj entry).symm
  · simp [allocated, unloaded, same] at entry

theorem kfree_freed (wc : Nat) (module : Module) : (module.kfree wc).freed wc = true := by
  simp [Module.kfree]

/-- The three ends of `wcfxs_init_one` once it has a structure. -/
theorem initStructure_eq : (initStructure outcomes 0 wc unloaded).2 =
    if outcomes.registered = false then (allocated wc).kfree wc
    else if outcomes.cards = false then { (allocated wc).kfree wc with proc := true }
    else { allocated wc with span := some wc, proc := true, sport := true, initOk := true } := by
  unfold initStructure wcfxsInitialize wcfxsHardwareInit
  cases outcomes.registered with
  | false => rfl
  | true =>
    cases outcomes.cards with
    | false => rfl
    | true => rfl

/-- Start-up without a structure. -/
theorem load_empty (nothing : outcomes.opermode = false ∨ outcomes.kmalloc = none) :
    Empty (load outcomes) := by
  unfold load wcfxsInit
  split
  · exact ⟨rfl, rfl, fun _ => rfl, rfl, rfl, rfl⟩
  · rename_i known
    rcases nothing with unknown | null
    · exact absurd (by simp [unknown]) known
    · rw [initOne_unloaded, null]
      exact ⟨rfl, rfl, fun _ => rfl, rfl, rfl, rfl⟩

/-- Start-up with a structure. -/
theorem load_some (known : outcomes.opermode = true) (some_wc : outcomes.kmalloc = some wc) :
    load outcomes = { (initStructure outcomes 0 wc unloaded).2 with loaded := true } := by
  unfold load wcfxsInit
  rw [known, initOne_unloaded, some_wc]
  rfl

/-- Start-up that succeeds. -/
theorem load_running (known : outcomes.opermode = true) (some_wc : outcomes.kmalloc = some wc)
    (registered : outcomes.registered = true) (cards : outcomes.cards = true) :
    Running wc (load outcomes) := by
  rw [load_some known some_wc, initStructure_eq, registered, cards, if_neg (by decide),
    if_neg (by decide)]
  exact ⟨rfl, rfl, rfl, rfl, ⟨0, allocated_first wc⟩, fun x other => allocated_only, rfl, rfl⟩

/-- Start-up that fails frees the structure and leaves it in `ifaces`. -/
theorem load_dangling (known : outcomes.opermode = true) (some_wc : outcomes.kmalloc = some wc)
    (failed : ¬ (outcomes.registered = true ∧ outcomes.cards = true)) : ¬ Clean (load outcomes) := by
  rintro ⟨-, entries⟩
  have dangling : (load outcomes).ifaces 0 = some wc ∧ (load outcomes).freed wc = true := by
    rw [load_some known some_wc, initStructure_eq]
    split
    · exact ⟨allocated_first wc, kfree_freed wc (allocated wc)⟩
    · split
      · exact ⟨allocated_first wc, kfree_freed wc (allocated wc)⟩
      · rename_i registered cards
        rw [Bool.not_eq_false] at registered cards
        exact absurd ⟨registered, cards⟩ failed
  have live := entries 0 wc dangling.1
  rw [dangling.2] at live
  cases live

/-- **When nothing points at freed memory**: for every outcome of the steps of start-up and every later
sequence of events, if and only if no structure was allocated, or start-up succeeded and the module is
not removed. -/
theorem lifecycle_iff (outcomes : Outcomes) (events : List Event) :
    (∀ state ∈ states outcomes events, Clean state) ↔
      (outcomes.opermode = false ∨ outcomes.kmalloc = none) ∨
      outcomes.registered = true ∧ outcomes.cards = true ∧ .remove ∉ events := by
  by_cases nothing : outcomes.opermode = false ∨ outcomes.kmalloc = none
  · exact iff_of_true ((load_empty nothing).run events) (.inl nothing)
  rw [or_iff_right nothing]
  rw [not_or, Bool.not_eq_false] at nothing
  obtain ⟨known, allocates⟩ := nothing
  obtain ⟨wc, some_wc⟩ := Option.ne_none_iff_exists'.mp allocates
  by_cases succeeded : outcomes.registered = true ∧ outcomes.cards = true
  · rw [← and_assoc, and_iff_right succeeded]
    exact (load_running known some_wc succeeded.1 succeeded.2).run events
  · refine iff_of_false (fun all => load_dangling known some_wc succeeded (all _ ?_)) fun holds =>
      succeeded ⟨holds.1, holds.2.1⟩
    unfold states
    cases events with
    | nil => exact List.mem_singleton.mpr rfl
    | cons event rest =>
      rw [List.scanl_cons]
      exact List.mem_cons_self

/-- **Start-up fails for want of cards, and `/proc/wcfxs` is read**: the read goes through `devs` to the
structure that was freed. -/
theorem proc_read_freed :
    let outcomes : Outcomes := ⟨true, some 0x1000, true, false⟩
    (load outcomes).ifaces 0 = some 0x1000 ∧ (load outcomes).freed 0x1000 = true ∧
    (step (load outcomes) .procRead).fault = true ∧
    ¬ ∀ state ∈ states outcomes [.procRead, .remove], Clean state := by
  have fault : (step (load ⟨true, some 0x1000, true, false⟩) .procRead).fault = true := by
    decide +kernel
  refine ⟨by decide +kernel, by decide +kernel, fault, fun all => ?_⟩
  have clean := all (step (load ⟨true, some 0x1000, true, false⟩) .procRead) (by simp [states])
  rw [clean.fault] at fault
  cases fault

end Startup

end Baps.Wcfxs.Lifecycle
