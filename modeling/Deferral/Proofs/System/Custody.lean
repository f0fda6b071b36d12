import Deferral.Proofs.System.Soundness
import Deferral.System.Settle

/-!
# Who owns the publishing side

The publishing side of a cell is owned by the launch of its reservation, which passes it on to a
task, and the task publishes an outcome when it comes to its end or is dropped. `Flagged` tells in
which phases there is a task. What a launch has still to do is a list of actions that depends on the
phase, and no action in between makes it longer (`Changes.launchSteps_sublist`). A task that was
condemned while suspended keeps its phase until it is dropped (`exists_condemned_run`).

Main statements:
* `custody_run`: in every run, the cell of a launched reservation is done or will be: its launch is
  under way, or it has a task, and a task that is doomed is due to be dropped.
-/

namespace Deferral

variable {V : Type}

namespace Reservation

/-- The computation was launched, or run directly on the pool. -/
def IsLaunched (x : Reservation V) : Prop :=
  x.launches ≠ 0 ∨ x.spawned = true

/-- There is a task that was neither carried to its end nor dropped. -/
def HasTask (x : Reservation V) : Prop :=
  x.spawned = true ∧ (x.phase.isSuspended = true ∨ x.phase.isActive = true)

/-- The cell is done, and the outcome is that of the computation unless it was dropped. -/
def IsAnswered (x : Reservation V) : Prop :=
  x.consumer.cell.slot ≠ .pending ∧ ∃ o, x.outcomes = [o] ∧
    (o = .error .scopeClosed ∨ o = .error .cancelled ∨ ∃ e, x.RanTo e ∧ o = e.outcome)

/-- What the launch has noted agrees with the phase. -/
structure Flagged (x : Reservation V) : Prop where
  /-- Before it is handed to a pool there is nothing to abort. -/
  unlaunched : x.phase.isLaunched = false → x.spawned = false ∧ x.aborted = false
  /-- A task was handed to a pool. -/
  task : x.phase.isSuspended = true ∨ x.phase.isActive = true → x.spawned = true
  /-- What was handed to a pool is not over without an outcome. -/
  of_isOver : x.spawned = true → x.phase.isOver = true → x.outcomes ≠ []

variable {x x' : Reservation V}

/-- An outcome that was published answers the consumer. -/
theorem Sound.isAnswered (hx : x.Sound) (h : x.outcomes ≠ []) : x.IsAnswered := by
  obtain ⟨o, rest, ho⟩ := List.exists_cons_of_ne_nil h
  have hmem : o ∈ x.outcomes := ho ▸ List.mem_cons_self
  obtain ⟨houtcomes, hcause⟩ := hx.outcomes_of_mem hmem
  refine ⟨fun hpending => ?_, o, houtcomes, ?_⟩
  · have hdone := hx.isDone_eq
    rw [Cell.isDone, hpending, houtcomes] at hdone
    cases hdone
  · obtain hran | ⟨-, hclosed⟩ | ⟨-, hcancelled⟩ := hcause
    · exact .inr (.inr hran)
    · exact .inl hclosed
    · exact .inr (.inl hcancelled)

/-- A cell that is done got an outcome that was published. -/
theorem Sound.isAnswered_of_slot (hx : x.Sound) (h : x.consumer.cell.slot ≠ .pending) :
    x.IsAnswered := by
  refine hx.isAnswered fun hnil => h ?_
  have hdone := hx.isDone_eq
  rw [hnil] at hdone
  cases hslot : x.consumer.cell.slot with
  | pending => rfl
  | ready | taken =>
    rw [Cell.isDone, hslot] at hdone
    cases hdone

/-- What was launched stays so. -/
theorem IsLaunched.grows (h : x.IsLaunched) (hgrows : x.Grows x') : x'.IsLaunched :=
  h.imp hgrows.launches_ne_zero hgrows.spawned_of_spawned

/-- A launched computation that is over has been answered for. -/
theorem IsLaunched.isAnswered_of_isOver (h : x.IsLaunched) (hx : x.Sound) (hflagged : x.Flagged)
    (hover : x.phase.isOver = true) : x.IsAnswered :=
  hx.isAnswered (h.elim (hx.outcomes_ne_nil · hover) (hflagged.of_isOver · hover))

/-- What was launched is no longer captured. -/
theorem IsLaunched.ne_captured (h : x.IsLaunched) (hx : x.Sound) (hflagged : x.Flagged) :
    x.phase ≠ .captured := by
  intro hphase
  cases h with
  | inl hlaunches => exact hlaunches (hx.captured hphase)
  | inr hspawned =>
    rw [(hflagged.unlaunched (by rw [hphase]; rfl)).1] at hspawned
    cases hspawned

/-- When the launch is over there is a task, or it has been answered for. -/
theorem IsLaunched.hasTask_or_isAnswered (h : x.IsLaunched) (hx : x.Sound)
    (hflagged : x.Flagged) (hphase : x.phase.isLaunched = true) : x.HasTask ∨ x.IsAnswered := by
  cases hover : x.phase.isOver with
  | true => exact .inr (h.isAnswered_of_isOver hx hflagged hover)
  | false =>
    have htask : x.phase.isSuspended = true ∨ x.phase.isActive = true := by
      cases hlast : x.phase with
      | queued | paused => exact .inl rfl
      | active => exact .inr rfl
      | captured | launching | cleared =>
        rw [hlast] at hphase
        cases hphase
      | ended | dropped =>
        rw [hlast] at hover
        cases hover
    exact .inl ⟨hflagged.task htask, htask⟩

/-- As long as the cell is pending, the launch is under way or there is a task. -/
theorem IsLaunched.owned (h : x.IsLaunched) (hx : x.Sound) (hflagged : x.Flagged)
    (hpending : x.consumer.cell.slot = .pending) :
    x.phase = .launching ∨ x.phase = .cleared ∨ x.HasTask := by
  cases hphase : x.phase with
  | captured => exact absurd hphase (h.ne_captured hx hflagged)
  | launching => exact .inl rfl
  | cleared => exact .inr (.inl rfl)
  | queued | paused | active | ended | dropped =>
    have hover : x.phase.isLaunched = true := by rw [hphase]; rfl
    refine .inr (.inr ((h.hasTask_or_isAnswered hx hflagged hover).resolve_right ?_))
    exact fun hanswered => hanswered.1 hpending

end Reservation

namespace System

variable {w : System V} {a : Action V} {r : ReservationId} {x x' : Reservation V}

/-- A reservation that is added has nothing noted, and no task. -/
theorem New.flagged (h : w.New a x) : x.Flagged := by
  cases h <;> exact ⟨fun _ => ⟨rfl, rfl⟩, nofun, nofun⟩

/-- A change keeps what is noted in agreement with the phase. -/
theorem Change.flagged (h : w.Change r a x x') (hx : x.Flagged) : x'.Flagged := by
  cases h with
  | handle | attach | letGo => exact ⟨hx.unlaunched, hx.task, hx.of_isOver⟩
  | abort _ hspawned =>
    -- An abort takes effect only on what was handed to a pool.
    refine ⟨fun hphase => ?_, hx.task, hx.of_isOver⟩
    rw [(hx.unlaunched hphase).1] at hspawned
    cases hspawned
  | launch hphase | clear hphase | clearDirectly hphase =>
    have hflags := hx.unlaunched (by rw [hphase]; rfl)
    exact ⟨fun _ => hflags, nofun, nofun⟩
  | queue => exact ⟨nofun, fun _ => rfl, nofun⟩
  | discard hphase =>
    refine ⟨nofun, nofun, fun hspawned => ?_⟩
    rw [(hx.unlaunched (by rw [hphase]; rfl)).1] at hspawned
    cases hspawned
  | refuse | lose | finish | drop =>
    exact ⟨nofun, nofun, fun _ _ => List.append_ne_nil_of_right_ne_nil _ nofun⟩
  | start hphase => exact ⟨nofun, fun _ => hx.task (.inl (by rw [hphase]; rfl)), nofun⟩
  | advance _ hphase | engage _ hphase =>
    exact ⟨nofun, fun _ => hx.task (hphase.symm.imp_left fun h =>
      Phase.isSuspended_of_isPaused h.1), nofun⟩
  | pause _ hphase => exact ⟨nofun, fun _ => hx.task (.inr hphase), nofun⟩

/-- In every run, what is noted of a reservation agrees with its phase. -/
theorem flagged_run {actions : List (Action V)}
    (h : (run {} actions).reservations[r]? = some x) : x.Flagged :=
  forall_run (fun _ _ _ hnew => hnew.flagged) (fun _ _ _ _ _ hchange => hchange.flagged) h

/-- In the system `w`, the actions lead the reservation `r` to what the predicate tells. -/
def LeadsTo (w : System V) (actions : List (Action V)) (r : ReservationId)
    (P : Reservation V → Prop) : Prop :=
  ∃ x, (w.run actions).reservations[r]? = some x ∧ P x

/-- What every change of a reservation preserves lasts through every run. -/
theorem leadsTo_of_preserved {P : Reservation V → Prop}
    (hchange : ∀ (w : System V) (a : Action V) (y y' : Reservation V), w.Change r a y y' →
      P y → P y') (hx : w.reservations[r]? = some x) (hP : P x) (further : List (Action V)) :
    w.LeadsTo further r P := by
  obtain ⟨x', hx', -⟩ := exists_grows_run hx further
  refine ⟨x', hx', ?_⟩
  induction hx' using run_induction_from hx with
  | start => exact hP
  | act _ _ _ hchanges ih => exact Changes.preserve (hchange _ _) hchanges ih

/-- What every change of a sound reservation preserves lasts through every run. -/
theorem leadsTo_of_change {P : Reservation V → Prop}
    (hchange : ∀ (w : System V) (a : Action V) (y y' : Reservation V), w.Change r a y y' →
      y.Sound → P y → P y') {actions : List (Action V)}
    (hx : (run {} actions).reservations[r]? = some x) (hP : P x) (further : List (Action V)) :
    (run {} actions).LeadsTo further r P := by
  obtain ⟨x', hx', -, hP'⟩ := leadsTo_of_preserved (P := fun y => y.Sound ∧ P y)
    (fun w a y y' h hy => ⟨hy.1.change h, hchange w a y y' h hy.1 hy.2⟩) hx ⟨sound_run hx, hP⟩
    further
  exact ⟨x', hx', hP'⟩

/-! ## Launches -/

/-- The steps that a launch has still to take. -/
def launchSteps (r : ReservationId) : Phase → List (Action V)
  | .launching => [.testClosed r, .spawn r]
  | .cleared => [.spawn r]
  | _ => []

/-- Nothing adds to the steps that a launch has still to take. -/
theorem Change.launchSteps_sublist (h : w.Change r a x x') (hphase : x.phase ≠ .captured) :
    x'.phase ≠ .captured ∧
      (launchSteps (V := V) r x'.phase).Sublist (launchSteps r x.phase) := by
  cases h with
  | handle | attach | letGo | abort => exact ⟨hphase, List.Sublist.refl _⟩
  -- The changes that begin a launch are impossible, since it has begun.
  | launch hcaptured | clearDirectly hcaptured | discard hcaptured =>
    exact absurd hcaptured hphase
  | clear hlaunching =>
    rw [hlaunching]
    exact ⟨nofun, List.sublist_cons_self ..⟩
  | queue | refuse | lose | start | advance | pause | engage | finish | drop =>
    exact ⟨nofun, List.nil_sublist _⟩

/-- No action adds to the steps that a launch has still to take. -/
theorem Changes.launchSteps_sublist (h : w.Changes r a x x') (hphase : x.phase ≠ .captured) :
    x'.phase ≠ .captured ∧
      (launchSteps (V := V) r x'.phase).Sublist (launchSteps r x.phase) := by
  refine h.preserve (P := fun y => y.phase ≠ .captured ∧
    (launchSteps (V := V) r y.phase).Sublist (launchSteps r x.phase)) (fun y y' hchange hy => ?_)
    ⟨hphase, List.Sublist.refl _⟩
  obtain ⟨hphase', hsublist⟩ := hchange.launchSteps_sublist hy.1
  exact ⟨hphase', hsublist.trans hy.2⟩

/-- The next step of a launch is taken. -/
theorem launchSteps_act {rest : List (Action V)} (hx : w.reservations[r]? = some x)
    (hx' : (w.act a).reservations[r]? = some x') (hsteps : launchSteps r x.phase = a :: rest) :
    (launchSteps r x'.phase).Sublist rest := by
  cases hphase : x.phase with
  | launching =>
    rw [hphase] at hsteps
    obtain ⟨rfl, rfl⟩ := List.cons.inj hsteps
    rw [act, getElem?_testClosed hx hphase] at hx'
    obtain rfl := Option.some.inj hx'
    split
    · exact List.nil_sublist _
    · exact List.Sublist.refl _
  | cleared =>
    rw [hphase] at hsteps
    obtain ⟨rfl, rfl⟩ := List.cons.inj hsteps
    rw [act, getElem?_spawn hx hphase] at hx'
    obtain rfl := Option.some.inj hx'
    split <;> exact List.Sublist.refl _
  | captured | queued | paused | active | ended | dropped =>
    rw [hphase] at hsteps
    cases hsteps

/-- A launch comes to its end in every run in which it takes its steps, whatever happens in
between. -/
theorem leadsTo_isLaunched_of_launchSteps (hphase : x.phase ≠ .captured)
    (hx : w.reservations[r]? = some x) {further : List (Action V)}
    (hdone : (launchSteps r x.phase).Sublist further) :
    w.LeadsTo further r fun x' => x'.phase.isLaunched = true := by
  induction further generalizing w x with
  | nil =>
    have hnil := List.sublist_nil.mp hdone
    refine ⟨x, hx, ?_⟩
    cases hlast : x.phase with
    | captured => exact absurd hlast hphase
    | launching | cleared =>
      rw [hlast] at hnil
      cases hnil
    | queued | paused | active | ended | dropped =>
      rw [hlast]
      rfl
  | cons a further ih =>
    obtain ⟨x', hx', hchanges⟩ := exists_changes_act hx a
    obtain ⟨hphase', hkept⟩ := Changes.launchSteps_sublist hchanges hphase
    refine ih hphase' hx' ?_
    -- The action is the next step of the launch, or all the steps are taken after it.
    obtain hskipped | ⟨rest, hsteps, hrest⟩ := List.sublist_cons_iff.mp hdone
    · exact hkept.trans hskipped
    · exact (launchSteps_act hx hx' hsteps).trans hrest

/-- The launch of a computation whose pool was shut down has come to nothing. -/
structure Lost (w : System V) (x : Reservation V) : Prop where
  /-- What is noted agrees with the phase. -/
  flagged : x.Flagged
  /-- The pool was shut down. -/
  isDown : w.IsDown x.scope
  /-- The launch is under way, or has come to nothing. -/
  phase_eq : x.phase = .launching ∨ x.phase = .cleared ∨ x.phase = .dropped

/-- A launch does not come to anything after all. -/
theorem Change.lost (h : w.Change r a x x') (hx : w.Lost x) : w.Lost x' := by
  have hscope : w.IsDown x'.scope := h.grows.scope_eq ▸ hx.isDown
  have hflagged := h.flagged hx.flagged
  have hphase := hx.phase_eq
  -- There has never been a task, so the changes of a task are out of the question.
  have hidle : x.phase.isActive = false ∧ x.phase.isSuspended = false := by
    obtain h | h | h := hx.phase_eq <;> rw [h] <;> exact ⟨rfl, rfl⟩
  cases h with
  | handle | attach | letGo | abort => exact ⟨hflagged, hscope, hphase⟩
  | launch hcaptured | clearDirectly hcaptured | discard hcaptured | start hcaptured =>
    rw [hcaptured] at hphase
    obtain h | h | h := hphase <;> cases h
  | clear => exact ⟨hflagged, hscope, .inr (.inl rfl)⟩
  -- The pool that was shut down takes no task.
  | queue _ halive => cases hx.isDown.poolAlive_eq_false.symm.trans halive
  | refuse | lose | drop => exact ⟨hflagged, hscope, .inr (.inr rfl)⟩
  | advance _ htask | engage _ htask =>
    obtain hactive | ⟨hpaused, -⟩ := htask
    · cases hidle.1.symm.trans hactive
    · cases hidle.2.symm.trans (Phase.isSuspended_of_isPaused hpaused)
  | pause _ hactive | finish hactive => cases hidle.1.symm.trans hactive

/-- A launch that has come to nothing does so throughout a run. -/
theorem exists_lost_run (hlost : w.Lost x) (hx : w.reservations[r]? = some x)
    (further : List (Action V)) :
    ∃ x', (w.run further).reservations[r]? = some x' ∧ (w.run further).Lost x' := by
  induction further generalizing w x with
  | nil => exact ⟨x, hx, hlost⟩
  | cons a further ih =>
    obtain ⟨x', hx', hchanges⟩ := exists_changes_act hx a
    have hlost' : w.Lost x' := Changes.preserve (fun _ _ hchange => hchange.lost) hchanges hlost
    exact ih ⟨hlost'.flagged, hlost'.isDown.ages (ages_act w a), hlost'.phase_eq⟩ hx'

/-- When a launch on a pool that was shut down comes to its end, the computation is dropped. -/
theorem leadsTo_dropped_of_lost (hlost : w.Lost x) (hx : w.reservations[r]? = some x)
    {further : List (Action V)} (hdone : (launchSteps r x.phase).Sublist further) :
    w.LeadsTo further r fun x' => x'.phase = .dropped := by
  have hcaptured : x.phase ≠ .captured := by
    obtain h | h | h := hlost.phase_eq <;> rw [h] <;> nofun
  -- The launch is over and has come to nothing, which leaves one phase only.
  obtain ⟨x', hx', hlaunched⟩ := leadsTo_isLaunched_of_launchSteps hcaptured hx hdone
  obtain ⟨x'', hx'', hlost'⟩ := exists_lost_run hlost hx further
  obtain rfl := Option.some.inj (hx'.symm.trans hx'')
  obtain h | h | h := hlost'.phase_eq
  · rw [h] at hlaunched
    cases hlaunched
  · rw [h] at hlaunched
    cases hlaunched
  · exact ⟨x', hx', h⟩

/-! ## Doomed tasks -/

/-- An abort of the computation was requested, or its pool was shut down. -/
def Condemned (w : System V) (x : Reservation V) : Prop :=
  x.aborted = true ∨ w.IsDown x.scope

/-- What was condemned is dropped when it is suspended. -/
theorem Condemned.isDoomed (h : w.Condemned x) : w.isDoomed x = true := by
  unfold System.isDoomed
  cases h with
  | inl haborted => rw [haborted, Bool.true_or]
  | inr hdown => rw [hdown.poolAlive_eq_false, Bool.not_false, Bool.or_true]

/-- What was condemned stays so. -/
theorem Condemned.grows (h : w.Condemned x) (hgrows : x.Grows x') : w.Condemned x' :=
  h.imp hgrows.aborted_of_aborted fun hdown => hgrows.scope_eq ▸ hdown

/-- A task that was condemned while suspended is not taken up again. -/
theorem Change.phase_of_condemned (h : w.Change r a x x') (hcondemned : w.Condemned x)
    (hsuspended : x.phase.isSuspended = true) :
    x'.phase = x.phase ∨
      a = .dropTask r ∧ x' = x.conclude .dropped .dropped (.error .cancelled) := by
  obtain ⟨_, _, _, rfl⟩ | ⟨hspared, -⟩ | hdropped := h.cases_of_isSuspended hsuspended
  · exact .inl rfl
  · -- Only what is not doomed is taken up.
    cases hcondemned.isDoomed.symm.trans hspared
  · exact .inr hdropped

/-- An action that does not drop a task which was condemned while suspended leaves it there. -/
theorem Changes.phase_of_condemned (h : w.Changes r a x x') (hx : w.Condemned x)
    (hsuspended : x.phase.isSuspended = true) (ha : a ≠ .dropTask r) :
    w.Condemned x' ∧ x'.phase = x.phase := by
  refine h.preserve (P := fun y => w.Condemned y ∧ y.phase = x.phase)
    (fun y y' hchange hy => ?_) ⟨hx, rfl⟩
  obtain ⟨hcondemned, hphase⟩ := hy
  refine ⟨hcondemned.grows hchange.grows, Eq.trans ?_ hphase⟩
  refine (hchange.phase_of_condemned hcondemned (hphase ▸ hsuspended)).resolve_right ?_
  exact fun hdropped => ha hdropped.1

/-- A task that was condemned while suspended waits until it is dropped. -/
theorem exists_condemned_run (hcondemned : w.Condemned x)
    (hsuspended : x.phase.isSuspended = true) (hx : w.reservations[r]? = some x)
    {further : List (Action V)} (hdrop : .dropTask r ∉ further) :
    ∃ x', (w.run further).reservations[r]? = some x' ∧ (w.run further).Condemned x' ∧
      x'.phase = x.phase := by
  induction further generalizing w x with
  | nil => exact ⟨x, hx, hcondemned, rfl⟩
  | cons a further ih =>
    rw [List.mem_cons, not_or] at hdrop
    obtain ⟨x', hx', hchanges⟩ := exists_changes_act hx a
    obtain ⟨hcondemned', hphase⟩ :=
      Changes.phase_of_condemned hchanges hcondemned hsuspended (Ne.symm hdrop.1)
    -- The pool that was shut down is still so after the action.
    have hages : (w.act a).Condemned x' :=
      hcondemned'.imp_right fun hdown => hdown.ages (ages_act w a)
    obtain ⟨x'', hx'', hcondemned'', hphase'⟩ := ih hages (hphase ▸ hsuspended) hx' hdrop.2
    exact ⟨x'', hx'', hcondemned'', hphase'.trans hphase⟩

/-- A task that was condemned while suspended is dropped when its turn comes. -/
theorem leadsTo_cancelled_of_mem (hcondemned : w.Condemned x)
    (hsuspended : x.phase.isSuspended = true) (hx : w.reservations[r]? = some x)
    {further : List (Action V)} (hdrop : .dropTask r ∈ further) :
    w.LeadsTo further r fun x' => .error .cancelled ∈ x'.outcomes := by
  -- Up to the first time that it is dropped, it stays suspended.
  obtain ⟨before, after, rfl, hbefore⟩ := List.eq_append_cons_of_mem hdrop
  obtain ⟨y, hy, hcondemned', hphase⟩ :=
    exists_condemned_run hcondemned hsuspended hx hbefore
  obtain ⟨z, hz, -, houtcomes⟩ :=
    exists_getElem?_dropTask hy (hphase ▸ hsuspended) hcondemned'.isDoomed
  obtain ⟨x', hx', hgrows⟩ := exists_grows_run hz after
  -- What is published then stays published.
  refine ⟨x', by rw [run_append]; exact hx', hgrows.outcomes_prefix.subset ?_⟩
  rw [houtcomes]
  exact List.mem_append_right _ List.mem_cons_self

/-- A doomed task whose launch has returned is dropped next. -/
theorem nextAction?_of_condemned (hcondemned : w.Condemned x)
    (hsuspended : x.phase.isSuspended = true) (hreturned : x.parent = none ∨ x.isSettled = true) :
    w.nextAction? x r = some (.dropTask r) := by
  have hdoomed := hcondemned.isDoomed
  -- A launch by a computation has two more steps, which come before anything else.
  have hheld : ¬(x.parent.isSome = true ∧ x.holdsScope = true) := by
    obtain h | h := hreturned
    · simp [h]
    · simp_all [Reservation.isSettled]
  have hattaching : ¬(x.parent.isSome = true ∧ x.consumer.attaching.isSome = true) := by
    obtain h | h := hreturned
    · simp [h]
    · simp_all [Reservation.isSettled]
  obtain hphase | ⟨pause, hphase⟩ := Phase.eq_of_isSuspended hsuspended
  · simp [nextAction?, hphase, Phase.isLaunched, hheld, hattaching, hdoomed]
  · simp [nextAction?, hphase, Phase.isLaunched, hheld, hattaching, hdoomed]

/-! ## Runs -/

/-- A doomed task is due to be dropped: it is next, it is not taken up before, and cancellation is
published when it is dropped. -/
structure Due (w : System V) (r : ReservationId) (x : Reservation V) : Prop where
  /-- As soon as its launch has returned, nothing else is to be done with it. -/
  next : x.parent = none ∨ x.isSettled = true → w.nextAction? x r = some (.dropTask r)
  /-- Until then it stays suspended, whatever happens. -/
  waits : ∀ further, .dropTask r ∉ further → w.LeadsTo further r fun x' => x'.phase = x.phase
  /-- Then its consumer is told. -/
  drops : ∀ further, .dropTask r ∈ further →
    w.LeadsTo further r fun x' => x'.IsAnswered ∧ x'.outcomes = [.error .cancelled]

/-- The publishing side of the reservation `x` of number `r` has an owner as long as the cell is
pending, and the owner will publish. -/
structure Custody (w : System V) (r : ReservationId) (x : Reservation V) : Prop where
  /-- As long as the cell is pending, the launch is under way or there is a task. -/
  owned : x.IsLaunched → x.consumer.cell.slot = .pending →
    x.phase = .launching ∨ x.phase = .cleared ∨ x.HasTask
  /-- Once the cell is done, one outcome was published. -/
  answered : x.IsLaunched → x.consumer.cell.slot ≠ .pending → x.IsAnswered
  /-- However a launch is interleaved with other actions, in the end there is a task or an
  answer. -/
  launched : x.IsLaunched → ∀ further, (launchSteps r x.phase).Sublist further →
    w.LeadsTo further r fun x' => x'.HasTask ∨ x'.IsAnswered
  /-- If the pool is shut down during the launch, the answer is that the scope is closed or that
  the computation is cancelled. -/
  lost : x.phase = .launching ∨ x.phase = .cleared → x.IsLaunched → w.IsDown x.scope →
    ∀ further, (launchSteps r x.phase).Sublist further →
      w.LeadsTo further r fun x' => x'.IsAnswered ∧
        (x'.outcomes = [.error .scopeClosed] ∨ x'.outcomes = [.error .cancelled])
  /-- A suspended task whose abort was requested, or whose pool was shut down, is due to be
  dropped. -/
  due : x.phase.isSuspended = true → w.Condemned x → w.Due r x

/-- What holds after every run holds when a run goes on. -/
theorem sound_and_flagged_run {actions further : List (Action V)}
    (hx' : ((run {} actions).run further).reservations[r]? = some x') : x'.Sound ∧ x'.Flagged := by
  rw [← run_append] at hx'
  exact ⟨sound_run hx', flagged_run hx'⟩

/-- What was launched stays so when the run goes on. -/
theorem isLaunched_run {further : List (Action V)} (hx : w.reservations[r]? = some x)
    (hx' : (w.run further).reservations[r]? = some x') (hlaunched : x.IsLaunched) :
    x'.IsLaunched := by
  have hgrows := grows_of_run hx hx'
  exact hlaunched.grows hgrows

/-- A launch that takes its steps leaves a task or an answer behind. -/
theorem leadsTo_hasTask_or_isAnswered {actions further : List (Action V)}
    (h : (run {} actions).reservations[r]? = some x) (hlaunched : x.IsLaunched)
    (hsteps : (launchSteps r x.phase).Sublist further) :
    (run {} actions).LeadsTo further r fun x' => x'.HasTask ∨ x'.IsAnswered := by
  have hcaptured := hlaunched.ne_captured (sound_run h) (flagged_run h)
  obtain ⟨x', hx', hphase⟩ := leadsTo_isLaunched_of_launchSteps hcaptured h hsteps
  obtain ⟨hsound', hflagged'⟩ := sound_and_flagged_run hx'
  have hlaunched' := isLaunched_run h hx' hlaunched
  exact ⟨x', hx', hlaunched'.hasTask_or_isAnswered hsound' hflagged' hphase⟩

/-- A launch that takes its steps although the pool was shut down leaves no task behind. -/
theorem leadsTo_isAnswered_of_isDown {actions further : List (Action V)}
    (h : (run {} actions).reservations[r]? = some x)
    (hphase : x.phase = .launching ∨ x.phase = .cleared) (hlaunched : x.IsLaunched)
    (hdown : (run {} actions).IsDown x.scope)
    (hsteps : (launchSteps r x.phase).Sublist further) :
    (run {} actions).LeadsTo further r fun x' => x'.IsAnswered ∧
      (x'.outcomes = [.error .scopeClosed] ∨ x'.outcomes = [.error .cancelled]) := by
  have hlost : (run {} actions).Lost x := ⟨flagged_run h, hdown, hphase.imp_right .inl⟩
  obtain ⟨x', hx', hdropped⟩ := leadsTo_dropped_of_lost hlost h hsteps
  obtain ⟨hsound', hflagged'⟩ := sound_and_flagged_run hx'
  have hover : x'.phase.isOver = true := by rw [hdropped]; rfl
  have hanswered := (isLaunched_run h hx' hlaunched).isAnswered_of_isOver hsound' hflagged' hover
  refine ⟨x', hx', hanswered, ?_⟩
  obtain ⟨-, hnil⟩ | hrefused | hcancelled := hsound'.dropped hdropped
  · -- Without an outcome it would not have been answered.
    obtain ⟨-, o, ho, -⟩ := hanswered
    cases hnil.symm.trans ho
  · exact .inl hrefused.outcomes_eq
  · exact .inr hcancelled

/-- A task that was condemned while suspended is due to be dropped. -/
theorem due_of_condemned {actions : List (Action V)}
    (h : (run {} actions).reservations[r]? = some x) (hsuspended : x.phase.isSuspended = true)
    (hcondemned : (run {} actions).Condemned x) : (run {} actions).Due r x where
  next := nextAction?_of_condemned hcondemned hsuspended
  waits further hdrop := by
    obtain ⟨x', hx', -, hphase⟩ := exists_condemned_run hcondemned hsuspended h hdrop
    exact ⟨x', hx', hphase⟩
  drops further hdrop := by
    obtain ⟨x', hx', hmem⟩ := leadsTo_cancelled_of_mem hcondemned hsuspended h hdrop
    obtain ⟨hsound', -⟩ := sound_and_flagged_run hx'
    exact ⟨x', hx', hsound'.isAnswered (List.ne_nil_of_mem hmem), (hsound'.outcomes_of_mem hmem).1⟩

/-- In every run, the cell of a launched reservation is done or has an owner that will publish. -/
theorem custody_run {actions : List (Action V)}
    (h : (run {} actions).reservations[r]? = some x) : Custody (run {} actions) r x where
  owned hlaunched hpending := hlaunched.owned (sound_run h) (flagged_run h) hpending
  answered _ hdone := (sound_run h).isAnswered_of_slot hdone
  launched hlaunched _ hsteps := leadsTo_hasTask_or_isAnswered h hlaunched hsteps
  lost hphase hlaunched hdown _ hsteps :=
    leadsTo_isAnswered_of_isDown h hphase hlaunched hdown hsteps
  due hsuspended hcondemned := due_of_condemned h hsuspended hcondemned

/-- A run in which a pool is shut down while one task waits at a gate and another computation is
between the look at the scope and the pool. -/
def twoStranded : List (Action Nat) :=
  [.addPool { threadName := "worker", workers := 1 }, .borrow "scope" 0,
    .reserve 0 none "a" (.gate "door" (.finish (.value 7))),
    .reserve 0 none "b" (.finish (.value 7)),
    .use 0 .spawn, .testClosed 0, .spawn 0, .letGo 0, .resume 0, .step 0,
    .use 1 .spawn, .testClosed 1, .stopPool 0 .background]

/-- Both are in custody: the one is due to be dropped, the other is lost. -/
theorem custody_twoStranded : ∃ a b, (run {} twoStranded).reservations = [a, b] ∧
    a.phase = .paused (.gate "door") ∧ b.phase = .cleared ∧ (run {} twoStranded).IsDown 0 ∧
    Custody (run {} twoStranded) 0 a ∧ Custody (run {} twoStranded) 1 b :=
  ⟨_, _, rfl, rfl, rfl, ⟨_, _, rfl, rfl, nofun⟩, custody_run rfl, custody_run rfl⟩

end System

end Deferral
