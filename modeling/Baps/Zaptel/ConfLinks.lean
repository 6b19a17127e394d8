/-
**Links between conferences.**

What is said in a conference is heard in another one too, if a process has asked for a link from `src` to `dst`.
There is room for `ZT_MAX_CONF` links in `conf_links`, and `maxlinks` is how many of its places a tick goes through.

* `LinkSet.conflink` — what `ZT_CONFLINK` is for: a set of links, to which one is added, and from which one is
  taken away;
* `links_followed` — requests are answered as those of a set, and **a tick follows each link once**, unless it is
  in the last place and there is none in the place before;
* `links_all_followed` — **all links are followed** as long as there is always room for one more.
-/

import Baps.Memory.Places
import Baps.Zaptel.Mixing

namespace Baps.Zaptel

open Baps.Memory (Stored)
open Finset (Icc)

/-! ### Data types -/

/-- What a request for a link is answered with, if not with `0`. -/
inductive LinkErrno
  | EINVAL
  | EEXIST
  | ENOSPC
  | ENOENT
  deriving DecidableEq, Repr

/-- `struct zt_confinfo`, and whether the channel that hands it over has `ZT_FLAG_AUDIO`. -/
structure ConfInfo where
  audio : Bool
  chan : Int
  confno : Int
  confmode : Int

/-- The link that is asked for, its `src` and its `dst`. -/
def ConfInfo.link (conf : ConfInfo) : Nat × Nat := (conf.chan.toNat, conf.confno.toNat)

/-- What `ZT_CONFLINK` finds wrong with its arguments. -/
def ConfInfo.refused (limits : ConfLimits) (conf : ConfInfo) : Bool :=
  ¬ conf.audio ∨
    (conf.chan < 0 ∨ conf.chan > limits.maxConf) ∨
    (conf.confno < 0 ∨ conf.confno > limits.maxConf) ∨
    -- can't listen to self
    (conf.chan ≠ 0 ∧ conf.chan = conf.confno)

/-- `conf_links`, as pairs of `src` and `dst`, and `maxlinks`. -/
structure ConfLinks where
  links : Nat → Nat × Nat
  maxlinks : Nat

namespace ConfLinks

/-- No links. -/
def cleared : ConfLinks := ⟨fun _ => (0, 0), 0⟩

/-- `recalc_maxlinks`. -/
def recalcMaxlinks (limits : ConfLimits) (table : ConfLinks) : ConfLinks :=
  { table with
    maxlinks := match (List.range' 1 (limits.maxConf - 1)).reverse.find? fun x => table.links x ≠ (0, 0) with
      | some x => x + 1
      | none => 0 }

/-- The first place with a link. -/
def place (limits : ConfLimits) (link : Nat × Nat) (table : ConfLinks) : Option Nat :=
  (List.range' 1 limits.maxConf).find? fun i => table.links i = link

/-- A link is added or taken away. -/
def relink (limits : ConfLimits) (conf : ConfInfo) (table : ConfLinks) :
    (Nat → Nat × Nat) × Option LinkErrno :=
  match table.place limits conf.link with
  | some i =>
    if conf.confmode = 0 then (Function.update table.links i (0, 0), none) else (table.links, some .EEXIST)
  | none =>
    if conf.confmode ≠ 0 then
      match table.place limits (0, 0) with
      | some i => (Function.update table.links i conf.link, none)
      | none => (table.links, some .ENOSPC)
    else (table.links, some .ENOENT)

/-- `ZT_CONFLINK`. -/
def conflink (limits : ConfLimits) (conf : ConfInfo) (table : ConfLinks) : ConfLinks × Option LinkErrno :=
  if conf.refused limits then (table, some .EINVAL)
  else if conf.chan = 0 ∧ conf.confno = 0 then
    (ConfLinks.recalcMaxlinks limits { table with links := fun _ => (0, 0) }, none)
  else
    let (links, rv) := table.relink limits conf
    (ConfLinks.recalcMaxlinks limits { table with links }, rv)

/-- The links that a tick goes through, empty places included. -/
def followed (table : ConfLinks) : List (Nat × Nat) := (List.range' 1 table.maxlinks).map table.links

/-- The table after some requests. -/
def after (limits : ConfLimits) (run : List ConfInfo) : ConfLinks :=
  run.foldl (fun table conf => (table.conflink limits conf).1) cleared

end ConfLinks

/-! ### A set of links -/

namespace LinkSet

/-- What is asked for: a link is added or taken away, or all of them. -/
def conflink (limits : ConfLimits) (conf : ConfInfo) (set : Finset (Nat × Nat)) :
    Finset (Nat × Nat) × Option LinkErrno :=
  if conf.refused limits then (set, some .EINVAL)
  else if conf.chan = 0 ∧ conf.confno = 0 then (∅, none)
  else if conf.link ∈ set then
    if conf.confmode = 0 then (set.erase conf.link, none) else (set, some .EEXIST)
  else if conf.confmode ≠ 0 then
    if set.card < limits.maxConf then (insert conf.link set, none) else (set, some .ENOSPC)
  else (set, some .ENOENT)

/-- The links after some requests. -/
def after (limits : ConfLimits) (run : List ConfInfo) : Finset (Nat × Nat) :=
  run.foldl (fun set conf => (conflink limits conf set).1) ∅

end LinkSet

section

variable {limits : ConfLimits} {conf : ConfInfo} {table : ConfLinks} {set : Finset (Nat × Nat)} {i : Nat}

/-- A link that is neither refused nor the request to clear all links is none of the empty ones. -/
theorem ConfInfo.link_ne (fine : ¬ conf.refused limits = true) (some : ¬ (conf.chan = 0 ∧ conf.confno = 0)) :
    conf.link ≠ (0, 0) := by
  intro bad
  obtain ⟨chan, confno⟩ := Prod.mk.inj bad
  rw [ConfInfo.refused, decide_eq_true_iff, not_or, not_or] at fine
  obtain ⟨-, low, fine⟩ := fine
  have := (not_or.mp fine).1
  omega

theorem ConfLinks.place_some {link : Nat × Nat} (found : table.place limits link = some i) :
    i ∈ Icc 1 limits.maxConf ∧ table.links i = link := by
  have inside := List.mem_of_find?_eq_some found
  rw [List.mem_range'_1] at inside
  have holds := List.find?_some found
  exact ⟨Finset.mem_Icc.mpr (by omega), of_decide_eq_true holds⟩

theorem ConfLinks.place_none {link : Nat × Nat} (found : table.place limits link = none)
    (inside : i ∈ Icc 1 limits.maxConf) : table.links i ≠ link := by
  obtain ⟨low, high⟩ := Finset.mem_Icc.mp inside
  have row : i ∈ List.range' 1 limits.maxConf := List.mem_range'_1.mpr (by omega)
  exact fun same => List.find?_eq_none.mp found i row (decide_eq_true same)

/-- The links are in the table, and `maxlinks` is up to date. -/
structure LinksMatch (limits : ConfLimits) (table : ConfLinks) (set : Finset (Nat × Nat)) : Prop where
  stored : Stored (0, 0) (Icc 1 limits.maxConf) table.links set
  first : table.links 0 = (0, 0)
  maxlinks : table.recalcMaxlinks limits = table

namespace LinksMatch

theorem cleared (limits : ConfLimits) : LinksMatch limits .cleared ∅ := by
  refine ⟨Stored.none _ _, rfl, ?_⟩
  unfold ConfLinks.recalcMaxlinks
  rw [List.find?_eq_none.mpr fun x _ => by exact of_decide_eq_false rfl]
  rfl

/-- The link is in the table just if it is in the set. -/
theorem place_iff (matched : LinksMatch limits table set) {link : Nat × Nat} (some : link ≠ (0, 0)) :
    (∃ i, table.place limits link = .some i) ↔ link ∈ set := by
  rw [matched.stored.mem_iff]
  constructor
  · rintro ⟨i, found⟩
    obtain ⟨inside, same⟩ := ConfLinks.place_some found
    exact ⟨some, i, inside, same⟩
  · rintro ⟨-, i, inside, same⟩
    cases found : table.place limits link with
    | none => exact absurd same (ConfLinks.place_none found inside)
    | some j => exact ⟨j, rfl⟩

/-- **A link is added to the set or taken away.** -/
theorem relink (matched : LinksMatch limits table set) (fine : ¬ conf.refused limits = true)
    (some : ¬ (conf.chan = 0 ∧ conf.confno = 0)) :
    (table.relink limits conf).2 = (LinkSet.conflink limits conf set).2 ∧
      Stored (0, 0) (Icc 1 limits.maxConf) (table.relink limits conf).1 (LinkSet.conflink limits conf set).1 ∧
      (table.relink limits conf).1 0 = (0, 0) := by
  have link := ConfInfo.link_ne fine some
  have placed := matched.place_iff link
  have elsewhere (i : Nat) (inside : i ∈ Icc 1 limits.maxConf) : 0 ≠ i := by
    have := Finset.mem_Icc.mp inside
    omega
  unfold ConfLinks.relink LinkSet.conflink
  rw [if_neg fine, if_neg some]
  cases found : table.place limits conf.link with
  | some i =>
    obtain ⟨inside, same⟩ := ConfLinks.place_some found
    rw [if_pos (placed.mp ⟨i, found⟩)]
    dsimp only
    by_cases remove : conf.confmode = 0
    · rw [if_pos remove, if_pos remove]
      have gone := matched.stored.remove inside (by rw [same]; exact link)
      rw [same] at gone
      refine ⟨rfl, gone, ?_⟩
      show Function.update table.links i (0, 0) 0 = (0, 0)
      rw [Function.update_of_ne (elsewhere i inside), matched.first]
    · rw [if_neg remove, if_neg remove]
      exact ⟨rfl, matched.stored, matched.first⟩
  | none =>
    have fresh : conf.link ∉ set := fun member => by
      obtain ⟨i, there⟩ := placed.mpr member
      rw [found] at there
      cases there
    rw [if_neg fresh]
    dsimp only
    by_cases add : conf.confmode ≠ 0
    · rw [if_pos add, if_pos add]
      have room := matched.stored.card_lt_iff
      rw [Nat.card_Icc, Nat.add_sub_cancel] at room
      cases free : table.place limits (0, 0) with
      | some i =>
        obtain ⟨inside, empty⟩ := ConfLinks.place_some free
        rw [if_pos (room.mpr ⟨i, inside, empty⟩)]
        refine ⟨rfl, matched.stored.put inside empty link fresh, ?_⟩
        show Function.update table.links i conf.link 0 = (0, 0)
        rw [Function.update_of_ne (elsewhere i inside), matched.first]
      | none =>
        have full : ¬ set.card < limits.maxConf := fun less => by
          obtain ⟨i, inside, empty⟩ := room.mp less
          exact ConfLinks.place_none free inside empty
        rw [if_neg full]
        exact ⟨rfl, matched.stored, matched.first⟩
    · rw [if_neg add, if_neg add]
      exact ⟨rfl, matched.stored, matched.first⟩

/-- **A request is answered as one of the set**, and does to the table what it does to the set. -/
theorem conflink (matched : LinksMatch limits table set) (conf : ConfInfo) :
    (table.conflink limits conf).2 = (LinkSet.conflink limits conf set).2 ∧
      LinksMatch limits (table.conflink limits conf).1 (LinkSet.conflink limits conf set).1 := by
  by_cases fine : conf.refused limits = true
  · unfold ConfLinks.conflink LinkSet.conflink
    rw [if_pos fine, if_pos fine]
    exact ⟨rfl, matched⟩
  by_cases some : conf.chan = 0 ∧ conf.confno = 0
  · unfold ConfLinks.conflink LinkSet.conflink
    rw [if_neg fine, if_neg fine, if_pos some, if_pos some]
    exact ⟨rfl, Stored.none _ _, rfl, rfl⟩
  · obtain ⟨answer, stored, first⟩ := matched.relink fine some
    unfold ConfLinks.conflink
    rw [if_neg fine, if_neg some]
    exact ⟨answer, stored, first, rfl⟩

/-- After any requests the table has the links that there are. -/
theorem after (limits : ConfLimits) (run : List ConfInfo) :
    LinksMatch limits (.after limits run) (LinkSet.after limits run) := by
  induction run using List.reverseRecOn with
  | nil => exact cleared limits
  | append_singleton run conf ih =>
    unfold ConfLinks.after LinkSet.after at ih ⊢
    rw [List.foldl_append, List.foldl_append]
    exact (ih.conflink conf).2

/-- What a tick does not go through is empty, but for the last place. -/
theorem beyond (matched : LinksMatch limits table set) (inside : i ∈ Icc 1 limits.maxConf)
    (behind : table.maxlinks < i) (used : table.links i ≠ (0, 0)) :
    i = limits.maxConf ∧ table.links (limits.maxConf - 1) = (0, 0) := by
  obtain ⟨low, high⟩ := Finset.mem_Icc.mp inside
  have row {x : Nat} : x ∈ List.range' 1 (limits.maxConf - 1) ↔ 1 ≤ x ∧ x < limits.maxConf := mem_rows
  rw [← matched.maxlinks, ConfLinks.recalcMaxlinks] at behind
  dsimp only at behind
  have last (below : ∀ x ∈ List.range' 1 (limits.maxConf - 1), i ≤ x + 1 → table.links x = (0, 0)) :
      i = limits.maxConf ∧ table.links (limits.maxConf - 1) = (0, 0) := by
    have top : i = limits.maxConf := by
      by_contra other
      exact used (below i (row.mpr (by omega)) (by omega))
    refine ⟨top, ?_⟩
    by_cases one : limits.maxConf = 1
    · rw [one]
      exact matched.first
    · exact below _ (row.mpr (by omega)) (by omega)
  apply last
  intro x known near
  by_contra some
  cases found : (List.range' 1 (limits.maxConf - 1)).reverse.find? fun x => table.links x ≠ (0, 0) with
  | none =>
    exact List.find?_eq_none.mp found x (List.mem_reverse.mpr known) (decide_eq_true some)
  | some top =>
    rw [found] at behind
    have := le_of_find_reverse found known (decide_eq_true some)
    dsimp only at behind
    omega

/-- A tick goes through no more places than there are, and through the last one only if there is a link in the
place before. -/
theorem maxlinks_le (matched : LinksMatch limits table set) :
    table.maxlinks ≤ limits.maxConf ∧
      (1 ≤ limits.maxConf → table.maxlinks = limits.maxConf → table.links (limits.maxConf - 1) ≠ (0, 0)) := by
  rw [← matched.maxlinks, ConfLinks.recalcMaxlinks]
  dsimp only
  cases found : (List.range' 1 (limits.maxConf - 1)).reverse.find? fun x => table.links x ≠ (0, 0) with
  | none => exact ⟨Nat.zero_le _, fun some zero => absurd zero (by dsimp only; omega)⟩
  | some top =>
    have inside := List.mem_of_find?_eq_some found
    rw [List.mem_reverse, mem_rows] at inside
    refine ⟨inside.2, fun _ full => ?_⟩
    dsimp only at full
    have used := List.find?_some found
    rw [← full, Nat.add_sub_cancel]
    exact of_decide_eq_true used

/-- **A tick follows each link once**, unless it is in the last place and the place before is empty. -/
theorem followed (matched : LinksMatch limits table set) :
    (table.followed.filter (· ≠ (0, 0))).Nodup ∧ (table.followed.filter (· ≠ (0, 0))).toFinset =
      if table.links limits.maxConf ≠ (0, 0) ∧ table.links (limits.maxConf - 1) = (0, 0) then
        set.erase (table.links limits.maxConf)
      else set := by
  have places : (List.range' 1 table.maxlinks).toFinset = Icc 1 table.maxlinks := by
    ext x
    rw [List.mem_toFinset, List.mem_range'_1, Finset.mem_Icc]
    omega
  have fewer : Icc 1 table.maxlinks ⊆ Icc 1 limits.maxConf := Finset.Icc_subset_Icc_right matched.maxlinks_le.1
  have outside {x : Nat} (inside : x ∈ Icc 1 limits.maxConf) (out : x ∉ Icc 1 table.maxlinks) :
      table.maxlinks < x := by
    rw [Finset.mem_Icc] at inside out
    omega
  apply Stored.listed (List.nodup_range' _)
  rw [places]
  by_cases lost : table.links limits.maxConf ≠ (0, 0) ∧ table.links (limits.maxConf - 1) = (0, 0)
  · rw [if_pos lost]
    have some : 1 ≤ limits.maxConf := by
      by_contra zero
      rw [show limits.maxConf = 0 by omega] at lost
      exact lost.1 matched.first
    have last : limits.maxConf ∈ Icc 1 limits.maxConf := Finset.mem_Icc.mpr ⟨some, le_rfl⟩
    have short : table.maxlinks < limits.maxConf :=
      lt_of_le_of_ne matched.maxlinks_le.1 fun full => matched.maxlinks_le.2 some full lost.2
    have gone := (matched.stored.remove last lost.1).part fewer fun x inside out => ?_
    · refine gone.congr fun x inside => ?_
      have := (Finset.mem_Icc.mp inside).2
      rw [Function.update_of_ne (by omega)]
    · by_cases top : x = limits.maxConf
      · rw [top, Function.update_self]
      · rw [Function.update_of_ne top]
        by_contra used
        exact top (matched.beyond inside (outside inside out) used).1
  · rw [if_neg lost]
    refine matched.stored.part fewer fun x inside out => ?_
    by_contra used
    obtain ⟨rfl, before⟩ := matched.beyond inside (outside inside out) used
    exact lost ⟨used, before⟩

/-- The last place is taken by nobody who leaves room. -/
theorem last_stays (matched : LinksMatch limits table set) (conf : ConfInfo)
    (room : (LinkSet.conflink limits conf set).1.card < limits.maxConf)
    (free : table.links limits.maxConf = (0, 0)) :
    (table.conflink limits conf).1.links limits.maxConf = (0, 0) := by
  obtain ⟨-, next⟩ := matched.conflink conf
  have fits := next.stored.card_lt_iff
  rw [Nat.card_Icc, Nat.add_sub_cancel] at fits
  obtain ⟨i, inside, empty⟩ := fits.mp room
  by_cases last : i = limits.maxConf
  · exact last ▸ empty
  obtain ⟨low, high⟩ := Finset.mem_Icc.mp inside
  unfold ConfLinks.conflink at empty ⊢
  split at empty
  next fine => rwa [if_pos fine]
  next fine =>
  rw [if_neg fine]
  split at empty
  next some =>
    rw [if_pos some]
    rfl
  next some =>
  rw [if_neg some]
  change (table.relink limits conf).1 i = (0, 0) at empty
  show (table.relink limits conf).1 limits.maxConf = (0, 0)
  unfold ConfLinks.relink at empty ⊢
  have link := ConfInfo.link_ne fine some
  cases found : table.place limits conf.link with
  | some j =>
    dsimp only
    split
    · show Function.update table.links j (0, 0) limits.maxConf = (0, 0)
      by_cases same : limits.maxConf = j
      · rw [same, Function.update_self]
      · rw [Function.update_of_ne same, free]
    · exact free
  | none =>
    rw [found] at empty
    dsimp only at empty ⊢
    split at empty
    next add =>
      rw [if_pos add]
      cases place : table.place limits (0, 0) with
      | some j =>
        rw [place] at empty
        dsimp only at empty ⊢
        by_cases same : limits.maxConf = j
        · -- a place before it is empty, and would have been taken
          have other : i ≠ j := fun bad => last (bad.trans same.symm)
          rw [Function.update_of_ne other] at empty
          obtain ⟨-, -, before⟩ := List.find?_range'_eq_some.mp place
          have taken := before i low (by omega)
          rw [empty] at taken
          exact absurd taken (by decide)
        · exact (Function.update_of_ne same conf.link table.links).trans free
      | none => exact free
    next add =>
      rw [if_neg add]
      exact free

end LinksMatch

end

/-! ### Ticks -/

/-- An empty place is no link. -/
theorem Desk.link_empty {n : Nat} (arith : Arith) {confs : Confs} (zero : confs.confalias 0 = 0) (desk : Desk n) :
    desk.link arith confs (0, 0) = desk := by
  unfold Desk.link
  dsimp only
  rw [zero, if_neg fun both => absurd both.1 (lt_irrefl 0)]

/-- A tick may leave empty places out. -/
theorem Desk.tick_links {n : Nat} (arith : Arith) {confs : Confs} (zero : confs.confalias 0 = 0)
    (links : List (Nat × Nat)) (sounds : Sounds n) (desk : Desk n) :
    desk.tick arith confs links sounds = desk.tick arith confs (links.filter (· ≠ (0, 0))) sounds := by
  have same (desk : Desk n) : links.foldl (link arith confs) desk
      = (links.filter (· ≠ (0, 0))).foldl (link arith confs) desk := by
    induction links generalizing desk with
    | nil => rfl
    | cons first links ih =>
      rw [List.foldl_cons, ih]
      by_cases empty : first = (0, 0)
      · rw [empty, link_empty arith zero, List.filter_cons_of_neg (by decide)]
      · have kept : decide (first ≠ (0, 0)) = true := decide_eq_true empty
        rw [List.filter_cons, if_pos kept, List.foldl_cons]
  unfold Desk.tick
  dsimp only
  rw [same]

/-- **A table of links.** After any requests the next one is answered as that of a set, and a tick follows each
link once, unless it is in the last place and there is none in the place before: that one it does not follow. -/
theorem links_followed (limits : ConfLimits) (run : List ConfInfo) (next : ConfInfo) :
    let table := ConfLinks.after limits run
    let set := LinkSet.after limits run
    (table.conflink limits next).2 = (LinkSet.conflink limits next set).2 ∧
      ∃ links : List (Nat × Nat), links.Nodup ∧
        (links.toFinset =
          if table.links limits.maxConf ≠ (0, 0) ∧ table.links (limits.maxConf - 1) = (0, 0) then
            set.erase (table.links limits.maxConf)
          else set) ∧
        ∀ {n : Nat} (arith : Arith) {confs : Confs} (sounds : Sounds n) (desk : Desk n), Sound limits confs →
          desk.tick arith confs table.followed sounds = desk.tick arith confs links sounds := by
  intro table set
  have matched := LinksMatch.after limits run
  obtain ⟨nodup, same⟩ := matched.followed
  refine ⟨(matched.conflink next).1, _, nodup, same, fun arith confs sounds desk sound => ?_⟩
  exact Desk.tick_links arith sound.paired.alias_zero table.followed sounds desk

/-- **All links are followed**, each once, as long as there is always room for one more. -/
theorem links_all_followed (limits : ConfLimits) (run : List ConfInfo)
    (room : ∀ before, before <+: run → (LinkSet.after limits before).card < limits.maxConf) :
    ∃ links : List (Nat × Nat), links.Nodup ∧ links.toFinset = LinkSet.after limits run ∧
      ∀ {n : Nat} (arith : Arith) {confs : Confs} (sounds : Sounds n) (desk : Desk n), Sound limits confs →
        desk.tick arith confs (ConfLinks.after limits run).followed sounds
          = desk.tick arith confs links sounds := by
  have last : (ConfLinks.after limits run).links limits.maxConf = (0, 0) := by
    induction run using List.reverseRecOn with
    | nil => rfl
    | append_singleton run conf ih =>
      have before := ih fun early prefix_ => room early (prefix_.trans (List.prefix_append run [conf]))
      have fits := room _ (List.prefix_refl (run ++ [conf]))
      unfold LinkSet.after at fits
      unfold ConfLinks.after
      rw [List.foldl_append] at fits ⊢
      exact (LinksMatch.after limits run).last_stays conf fits before
  obtain ⟨nodup, same⟩ := (LinksMatch.after limits run).followed
  rw [if_neg fun lost => lost.1 last] at same
  refine ⟨_, nodup, same, fun arith confs sounds desk sound => ?_⟩
  exact Desk.tick_links arith sound.paired.alias_zero (ConfLinks.after limits run).followed sounds desk

/-- Three conferences and channels. -/
def threeConferences : ConfLimits := ⟨3, 3, Nat.le_succ 3⟩

/-- Two links are added, and the first one is taken away. -/
def twoLinks : List ConfInfo := [⟨true, 1, 2, 1⟩, ⟨true, 2, 3, 1⟩, ⟨true, 1, 2, 0⟩]

theorem twoLinks_room : ∀ before ∈ twoLinks.inits, (LinkSet.after threeConferences before).card < 3 := by
  decide

theorem links_all_followed_two : ∃ links : List (Nat × Nat), links.Nodup ∧
    links.toFinset = LinkSet.after threeConferences twoLinks ∧
    ∀ {n : Nat} (arith : Arith) {confs : Confs} (sounds : Sounds n) (desk : Desk n),
      Sound threeConferences confs →
      desk.tick arith confs (ConfLinks.after threeConferences twoLinks).followed sounds
        = desk.tick arith confs links sounds :=
  links_all_followed threeConferences twoLinks fun before prefix_ =>
    twoLinks_room before ((List.mem_inits before twoLinks).mpr prefix_)

/-- The table is full, and then the second link is taken away. The third one is not followed any more. -/
example : (1, 3) ∈ LinkSet.after threeConferences
    [⟨true, 1, 2, 1⟩, ⟨true, 2, 3, 1⟩, ⟨true, 1, 3, 1⟩, ⟨true, 2, 3, 0⟩] ∧
    (1, 3) ∉ (ConfLinks.after threeConferences
      [⟨true, 1, 2, 1⟩, ⟨true, 2, 3, 1⟩, ⟨true, 1, 3, 1⟩, ⟨true, 2, 3, 0⟩]).followed := by
  decide

end Baps.Zaptel
