import Deferral.Proofs.System.Custody
import Deferral.Proofs.System.Laziness
import Deferral.Proofs.System.Ownership
import Mathlib.Algebra.GroupWithZero.Nat

/-!
# Who refers to a scope

A scope counts the references to it. Callers hold some of them. A reservation accounts for one,
which goes either with the handle that is dropped unstarted or with the launch, when that has got
past the pool. The steps that remain of a computation account for the scopes that they mention.
`Holders` says of each of them from when on and until when, so that the count is exact.

Main statements:
* `count_held_act`: callers get and drop references by sharing and dropping them only.
* `Change.accounts`, `accounts_run`: when a reservation accounts for a reference to its scope.
* `holders_of_counted`: who refers to a scope that has counted its references.
-/

namespace Deferral

variable {V : Type}

namespace Reservation

/-- The reservation was dropped before its computation was started. -/
structure Discarded (x : Reservation V) : Prop where
  /-- It was dropped. -/
  phase_eq : x.phase = .dropped
  /-- It was not launched before. -/
  launches_eq : x.launches = 0
  /-- Nor was it handed to a pool in any other way. -/
  spawned_eq : x.spawned = false

/-- The reservation accounts for a reference to its scope when it should. -/
structure Accounts (x : Reservation V) : Prop where
  /-- A launch that is about to look at the scope has been counted. -/
  counted : x.phase = .launching → x.launches ≠ 0
  /-- It does so until its launch has got past the pool. -/
  unlaunched : x.phase.isLaunched = false → x.holdsScope = true
  /-- It does not after it was dropped unstarted. -/
  discarded : x.Discarded → x.holdsScope = false

end Reservation

namespace System

variable {w w' : System V} {s : ScopeId} {a : Action V} {r : ReservationId} {x x' : Reservation V}

/-! ## What callers hold -/

/-- No scope is made, and callers hold what they have held. -/
structure Still (w w' : System V) : Prop where
  /-- Callers hold the same references. -/
  held_eq : w'.held = w.held
  /-- There are the same scopes. -/
  length_eq : w'.scopes.length = w.scopes.length

/-- What operations are composed of neither makes scopes nor references for callers. -/
theorem Still.operational : Operational (Still (V := V)) where
  of_eq hscopes _ hheld := ⟨hheld, by rw [hscopes]⟩
  trans h h' := ⟨h'.held_eq.trans h.held_eq, h'.length_eq.trans h.length_eq⟩
  updateScope w s f _ := ⟨rfl, List.length_modify ..⟩
  stopPool w p stop := ⟨rfl, rfl⟩

/-- With a further reference, callers hold one more. -/
theorem count_held_share (hs : s ∈ w.held) : (w.share s).held.count s = w.held.count s + 1 := by
  rw [share, if_pos hs]
  exact List.count_cons_self

/-- With a reference that they drop, callers hold one less. -/
theorem count_held_unshare (hs : s ∈ w.held) :
    (w.unshare s).held.count s + 1 = w.held.count s := by
  rw [unshare, if_pos hs, (Still.operational.release ..).held_eq, List.count_erase_self]
  exact Nat.sub_add_cancel (List.count_pos_iff.mpr hs)

/-- Only by sharing and dropping them does the number of references change that callers hold to a
scope. -/
theorem count_held_act (hs : s < w.scopes.length)
    (ha : s ∈ w.held → a ≠ .share s ∧ a ≠ .unshare s) :
    (w.act a).held.count s = w.held.count s := by
  -- A new scope has a new number; a reference that is shared or dropped is to another scope.
  cases a with
  | build settings =>
    rw [act]
    split
    next hbuild =>
      obtain ⟨pool, -, -, -, rfl⟩ := eq_of_build w hbuild
      exact List.count_cons_of_ne (Nat.ne_of_gt hs)
    next => rfl
  | borrow name p =>
    rw [act]
    split
    · exact List.count_cons_of_ne (Nat.ne_of_gt hs)
    · rfl
  | share t =>
    rw [act, share]
    split
    next hheld =>
      have hne : t ≠ s := fun heq => (ha (heq ▸ hheld)).1 (congrArg Action.share heq)
      exact List.count_cons_of_ne hne
    next => rfl
  | unshare t =>
    rw [act, unshare]
    split
    next hheld =>
      have hne : t ≠ s := fun heq => (ha (heq ▸ hheld)).2 (congrArg Action.unshare heq)
      rw [(Still.operational.release ..).held_eq]
      exact List.count_erase_of_ne hne.symm
    next => rfl
  | addPool => rfl
  | _ => rw [(Still.operational.act w rfl).held_eq]

/-- A reference of a caller lasts until it is dropped. -/
theorem mem_held_act (hs : s ∈ w.held) (ha : a = .unshare s → 1 < w.held.count s) :
    s ∈ (w.act a).held := by
  cases a with
  | build settings =>
    rw [act]
    split
    next hbuild =>
      obtain ⟨pool, -, -, -, rfl⟩ := eq_of_build w hbuild
      exact List.mem_cons_of_mem _ hs
    next => exact hs
  | borrow name p =>
    rw [act]
    split
    · exact List.mem_cons_of_mem _ hs
    · exact hs
  | share t =>
    rw [act, share]
    split
    · exact List.mem_cons_of_mem _ hs
    · exact hs
  | unshare t =>
    rw [act, unshare]
    split
    next hheld =>
      rw [(Still.operational.release ..).held_eq]
      by_cases heq : s = t
      · -- One reference is dropped, and there was a second one.
        have hcount := ha (by rw [heq])
        refine List.count_pos_iff.mp ?_
        rw [← heq, List.count_erase_self]
        omega
      · exact (List.mem_erase_of_ne heq).mpr hs
    next => exact hs
  | addPool => exact hs
  | _ =>
    rw [(Still.operational.act w rfl).held_eq]
    exact hs

/-! ## What reservations account for -/

/-- A reservation that is added accounts for a reference to its scope. -/
theorem New.accounts (h : w.New a x) : x.Accounts := by
  cases h with
  | reserve => exact ⟨nofun, fun _ => rfl, fun hdiscarded => nomatch hdiscarded.phase_eq⟩
  | await =>
    exact ⟨fun _ => Nat.one_ne_zero, fun _ => rfl, fun hdiscarded => nomatch hdiscarded.phase_eq⟩

/-- Whatever happens to a reservation, it accounts for a reference to its scope when it should. -/
theorem Change.accounts (h : w.Change r a x x') (hflagged : x.Flagged) (hx : x.Accounts) :
    x'.Accounts := by
  cases h with
  | handle | attach | abort =>
    exact ⟨hx.counted, hx.unlaunched, fun ⟨hphase, hlaunches, hspawned⟩ =>
      hx.discarded ⟨hphase, hlaunches, hspawned⟩⟩
  | letGo hlaunched =>
    refine ⟨hx.counted, fun hphase => ?_, fun _ => rfl⟩
    cases hlaunched.symm.trans hphase
  | launch hphase =>
    exact ⟨fun _ => Nat.succ_ne_zero _, fun _ => hx.unlaunched (by rw [hphase]; rfl),
      fun hdiscarded => nomatch hdiscarded.phase_eq⟩
  | clear hphase | clearDirectly hphase =>
    exact ⟨nofun, fun _ => hx.unlaunched (by rw [hphase]; rfl),
      fun hdiscarded => nomatch hdiscarded.phase_eq⟩
  | discard => exact ⟨nofun, nofun, fun _ => rfl⟩
  -- These drop it, too, but it was launched, or handed to a pool.
  | refuse _ _ hphase =>
    exact ⟨nofun, nofun, fun hdiscarded => absurd hdiscarded.launches_eq (hx.counted hphase)⟩
  | lose => exact ⟨nofun, nofun, fun hdiscarded => nomatch hdiscarded.spawned_eq⟩
  | drop _ hphase =>
    have hspawned := hflagged.task (.inl hphase)
    exact ⟨nofun, nofun, fun hdiscarded => nomatch hspawned.symm.trans hdiscarded.spawned_eq⟩
  | queue | start | advance | pause | engage | finish =>
    exact ⟨nofun, nofun, fun hdiscarded => nomatch hdiscarded.phase_eq⟩

/-- In every run, a reservation accounts for a reference to its scope when it should. -/
theorem accounts_run {actions : List (Action V)} (hx : (run {} actions).reservations[r]? = some x) :
    x.Accounts :=
  (forall_run (P := fun x => x.Flagged ∧ x.Accounts)
    (fun _ _ _ hnew => ⟨hnew.flagged, hnew.accounts⟩)
    (fun _ _ _ _ _ hchange hx => ⟨hchange.flagged hx.1, hchange.accounts hx.1 hx.2⟩) hx).2

/-- A reference that was dropped is not made again. -/
theorem Change.holdsScope_eq_false (h : w.Change r a x x') (hx : x.holdsScope = false) :
    x'.holdsScope = false := by
  cases h with
  | letGo | discard => rfl
  | handle | attach | launch | refuse | clear | clearDirectly | queue | lose | abort | start
  | advance | pause | engage | finish | drop => exact hx

/-- A reference is dropped by the launch when it lets go of the scope, or with a reservation that
was not started. -/
theorem Change.holdsScope_or_discarded (h : w.Change r a x x') (hsound : x.Sound)
    (hflagged : x.Flagged) (ha : a ≠ .letGo r) (hx : x.holdsScope = true ∨ x.Discarded) :
    x'.holdsScope = true ∨ x'.Discarded := by
  rcases hx with hholds | ⟨hphase, hlaunches, hspawned⟩
  · cases h with
    | letGo _ hletGo => exact absurd hletGo ha
    | discard hphase =>
      have hfresh := hflagged.unlaunched (by rw [hphase]; rfl)
      exact .inr ⟨rfl, hsound.captured hphase, hfresh.1⟩
    | handle | attach | launch | refuse | clear | clearDirectly | queue | lose | abort | start
    | advance | pause | engage | finish | drop => exact .inl hholds
  · obtain ⟨_, _, _, rfl⟩ := h.exists_eq_of_isOver (by rw [hphase]; rfl)
    exact .inr ⟨hphase, hlaunches, hspawned⟩

/-- In every run, a reservation accounts for its reference as long as its launch has not let go of
the scope, unless it is dropped unstarted. -/
theorem leadsTo_holdsScope_or_discarded {actions further : List (Action V)}
    (hx : (run {} actions).reservations[r]? = some x) (hholds : x.holdsScope = true)
    (hmem : .letGo r ∉ further) :
    (run {} actions).LeadsTo further r fun x' => x'.holdsScope = true ∨ x'.Discarded := by
  obtain ⟨x', hx', -⟩ := exists_grows_run hx further
  refine ⟨x', hx', ?_⟩
  induction hx' using run_induction_from hx with
  | start => exact .inl hholds
  | @act further a y x' _ hy _ hchanges ih =>
    rw [List.mem_append, not_or, List.mem_singleton] at hmem
    obtain ⟨hsound, hflagged⟩ := sound_and_flagged_run hy
    have hkept := hchanges.preserve
      (P := fun z => z.Sound ∧ z.Flagged ∧ (z.holdsScope = true ∨ z.Discarded))
      (fun z z' hchange hz => ⟨hz.1.change hchange, hchange.flagged hz.2.1,
        hchange.holdsScope_or_discarded hz.1 hz.2.1 (Ne.symm hmem.2) hz.2.2⟩)
      ⟨hsound, hflagged, ih hmem.1⟩
    exact hkept.2.2

/-- In every run, a reservation holds no reference to its scope once its launch has let go of it. -/
theorem leadsTo_letGo {actions further : List (Action V)}
    (hx : (run {} actions).reservations[r]? = some x) (hlaunched : x.phase.isLaunched = true)
    (hmem : .letGo r ∈ further) :
    (run {} actions).LeadsTo further r fun x' => x'.holdsScope = false := by
  obtain ⟨before, after, rfl⟩ := List.append_of_mem hmem
  obtain ⟨y, hy, hlaunched'⟩ :=
    leadsTo_of_change (fun _ _ _ _ hchange _ hz => hchange.isLaunched hz) hx hlaunched before
  have hdropped : (((run {} actions).run before).act (.letGo r)).reservations[r]? =
      some { y with holdsScope := false } := by
    rw [act, reservations_letGo, List.getElem?_modify_eq, hy]
    simp [hlaunched']
  rw [LeadsTo, run_append, run_cons]
  rw [← run_append, ← run_concat] at hdropped ⊢
  exact leadsTo_of_change (fun _ _ _ _ hchange _ hz => hchange.holdsScope_eq_false hz) hdropped rfl
    after

/-- In every run, a caller who drops a handle that has not started its computation discards the
reservation. -/
theorem exists_discarded_drop {actions : List (Action V)}
    (hx : (run {} actions).reservations[r]? = some x) (hparent : x.parent = none)
    (hcold : x.consumer.handle.isCold = true) :
    ∃ x', ((run {} actions).act (.drop r)).reservations[r]? = some x' ∧ x'.Discarded := by
  have hphase := (aligned_run hx).captured_iff.mpr hcold
  have hoffered : isOffered x = true := by simp [isOffered, hparent, hphase]
  have hkeeps : ¬Consumer.givesUp x.consumer.handle = true := by
    intro hgives
    cases hcold.symm.trans (Reservation.isCold_of_givesUp hgives)
  refine ⟨_, getElem?_act_of_offered rfl (by simp) hx hoffered, ?_⟩
  have hdrop : x.operate (.drop r) = x.dropHandle := rfl
  rw [hdrop, Reservation.dropHandle, if_neg hkeeps, if_pos hphase]
  have hfresh := (flagged_run hx).unlaunched (by rw [hphase]; rfl)
  exact ⟨rfl, (sound_run hx).captured hphase, hfresh.1⟩

/-! ## All together -/

/-- The references that reservations account for, by those whose launch is not over and by the steps
of computations that are not over. -/
theorem count_references (l : List (Reservation V)) (s : ScopeId) :
    (l.flatMap Reservation.references).count s =
      l.countP (fun x => x.holdsScope && x.scope == s) +
        ((l.filter fun x => !x.phase.isOver).map fun x => x.rest.mentions.count s).sum := by
  induction l with
  | nil => rfl
  | cons x l ih =>
    have hscope : (if x.holdsScope then [x.scope] else []).count s =
        if (x.holdsScope && x.scope == s) = true then 1 else 0 := by
      cases x.holdsScope <;> simp [List.count_singleton]
    rw [List.flatMap_cons, List.count_append, ih, Reservation.references, List.count_append, hscope,
      List.countP_cons, Reservation.mentions]
    cases hover : x.phase.isOver with
    | true =>
      rw [List.filter_cons_of_neg (by simp [hover]), if_pos rfl, List.count_nil]
      omega
    | false =>
      rw [List.filter_cons_of_pos (by simp [hover]), if_neg Bool.false_ne_true, List.map_cons,
        List.sum_cons]
      omega

/-- Who refers to the scope `s`, which is `scope`. -/
structure Holders (s : ScopeId) (w : System V) (scope : Scope) : Prop where
  /-- Those who refer to it are callers, reservations whose launch is not over, and computations
  that are not over and have not let go of it; and the call of shutdown that is under way. -/
  references_eq : scope.references = w.held.count s +
    (w.reservations.countP (fun x => x.holdsScope && x.scope == s) +
      ((w.reservations.filter fun x => !x.phase.isOver).map fun x => x.rest.mentions.count s).sum) +
    if scope.closing.isSome then 1 else 0
  /-- A caller that shares a reference holds a further one. -/
  shared : s ∈ w.held → (w.act (.share s)).held.count s = w.held.count s + 1
  /-- A caller that drops a reference holds it no more. -/
  unshared : s ∈ w.held → (w.act (.unshare s)).held.count s + 1 = w.held.count s
  /-- Nothing else changes how many references callers hold. -/
  kept : ∀ a : Action V, a ≠ .share s → a ≠ .unshare s → (w.act a).held.count s = w.held.count s
  /-- A reservation refers to its scope as long as its handle has not started it. -/
  unstarted : ∀ x ∈ w.reservations, x.consumer.handle.isCold = true → x.holdsScope = true
  /-- A handle that is dropped before that discards the reservation. -/
  discards : ∀ r x, w.reservations[r]? = some x → x.parent = none →
    x.consumer.handle.isCold = true →
      ∃ x', (w.act (.drop r)).reservations[r]? = some x' ∧ x'.Discarded
  /-- What was discarded does not refer to its scope. -/
  discarded : ∀ x ∈ w.reservations, x.Discarded → x.holdsScope = false
  /-- What was started refers to its scope until its launch has got past the pool. -/
  launching : ∀ x ∈ w.reservations, x.phase.isLaunched = false → x.holdsScope = true
  /-- Then the launch lets go of the scope, for good. -/
  letGo : ∀ r x, w.reservations[r]? = some x → x.phase.isLaunched = true → ∀ further,
    .letGo r ∈ further → w.LeadsTo further r fun x' => x'.holdsScope = false
  /-- Nothing else makes a reservation let go of its scope, except that it is discarded. -/
  underway : ∀ r x, w.reservations[r]? = some x → x.holdsScope = true → ∀ further,
    .letGo r ∉ further → w.LeadsTo further r fun x' => x'.holdsScope = true ∨ x'.Discarded
  /-- Once its launch has returned, a reservation does not refer to its scope any more. -/
  settled : ∀ r x, w.reservations[r]? = some x → x.isSettled = true → ∀ further,
    w.LeadsTo further r fun x' => x'.holdsScope = false

/-- In every run, a scope that has counted its references is referred to by those who should. -/
theorem holders_of_counted {actions : List (Action V)} {scope : Scope} {record? : Option Record}
    (hscope : (run {} actions).scopes[s]? = some scope)
    (hcounted : scope.Counted ((run {} actions).references.count s) record?) :
    Holders s (run {} actions) scope where
  references_eq := by
    rw [hcounted.references_eq, references, List.count_append, count_references]
  shared hheld := count_held_share hheld
  unshared hheld := count_held_unshare hheld
  kept a hshare hunshare :=
    count_held_act (List.getElem?_eq_some_iff.mp hscope).1 fun _ => ⟨hshare, hunshare⟩
  unstarted x hx hcold := by
    obtain ⟨r, hr⟩ := List.getElem?_of_mem hx
    have hphase := (aligned_run hr).captured_iff.mpr hcold
    exact (accounts_run hr).unlaunched (by rw [hphase]; rfl)
  discards r x hx hparent hcold := exists_discarded_drop hx hparent hcold
  discarded x hx hdiscarded := by
    obtain ⟨r, hr⟩ := List.getElem?_of_mem hx
    exact (accounts_run hr).discarded hdiscarded
  launching x hx hphase := by
    obtain ⟨r, hr⟩ := List.getElem?_of_mem hx
    exact (accounts_run hr).unlaunched hphase
  letGo r x hx hlaunched further hmem := leadsTo_letGo hx hlaunched hmem
  underway r x hx hholds further hmem := leadsTo_holdsScope_or_discarded hx hholds hmem
  settled r x hx hsettled further := by
    have hgone : x.holdsScope = false := by
      simp only [Reservation.isSettled, Bool.and_eq_true, Bool.not_eq_true'] at hsettled
      exact hsettled.1.2
    exact leadsTo_of_change (fun _ _ _ _ hchange _ hz => hchange.holdsScope_eq_false hz) hx hgone
      further

end System

end Deferral
