import Deferral.Session.Basic
import Deferral.Proofs.System.Operation
import Deferral.Proofs.System.Trace

/-!
# Laziness

A computation is launched at most once, by the first operation that needs it to be running, and
until then nothing of it is carried out. The handle tells whether that has happened: `Aligned`
relates it to the phase and to the number of launches, and every action preserves that.

Main statements:
* `aligned_run`: in every run, the handle of a reservation tells whether it was launched.
* `laziness_run`: in every run, a computation is launched at most once, by the first operation that
  asks for it, and reports its steps in their order from then on.
-/

namespace Deferral

variable {V : Type}

/-! ## Handles -/

/-- Whether a handle that starts on demand has started its computation. -/
def Handle.isStarted : Handle → Bool
  | .mono stage | .maybe stage | .stream stage => stage.isStarted
  | _ => false

/-- Whether an operation is one that a handle of this shape offers. -/
def Shape.offers : Shape → Use → Bool
  | .mono, .block _ | .mono, .subscribe | .mono, .poll | .maybe, .get | .maybe, .poll
  | .stream, .poll => true
  | _, _ => false

/-- The handle `h` can become `h'` without a launch. -/
def Handle.Moves (h h' : Handle) : Prop :=
  h' = h ∨ h.isCold = false ∧ h'.isCold = false ∧ (h'.isStarted = true → h.isStarted = true)

namespace Consumer

variable {c : Consumer V}

/-- The first operation that a handle offers launches the computation. -/
theorem launch_begin_of_idle {shape : Shape} (h : c.handle = shape.idle) (u : Use) :
    (c.begin u).launch = shape.offers u := by
  unfold begin
  rw [h]
  cases shape <;> cases u <;> first | rfl | (rename_i limit; cases limit <;> rfl)

/-- Only a handle that has not started its computation launches it. -/
theorem isCold_of_launch_begin {u : Use} (h : (c.begin u).launch = true) :
    c.handle.isCold = true := by
  cases c.begins u with
  | launched hl => exact hl.isCold
  | continued _ hbegin | answered _ hbegin | told _ hbegin | ignored _ _ hbegin =>
    rw [hbegin] at h
    cases h

/-- After the launch the handle is one that has started its computation. -/
theorem isCold_begin_of_launch {u : Use} (h : (c.begin u).launch = true) :
    (c.begin u).consumer.handle.isCold = false := by
  cases c.begins u with
  | launched hl hbegin =>
    rw [hbegin]
    exact hl.isCold_eq_false
  | continued _ hbegin | answered _ hbegin | told _ hbegin | ignored _ _ hbegin =>
    rw [hbegin] at h
    cases h

/-- What goes on with a computation, and is no poll, leads to no handle that starts on demand. -/
theorem Continues.isStarted_eq_false {h h' : Handle} {callback? : Option Callback} {u : Use}
    (hc : Continues u h h' callback?) : h'.isStarted = false := by
  cases hc with
  | block limit => cases limit <;> rfl
  | join | joinWithin | get | subscribe => rfl

/-- An operation that launches nothing goes on from a handle that has started its computation. -/
theorem moves_begin {u : Use} (h : (c.begin u).launch = false) :
    c.handle.Moves (c.begin u).consumer.handle := by
  cases c.begins u with
  | launched _ hbegin =>
    rw [hbegin] at h
    cases h
  | continued hc hbegin =>
    rw [hbegin]
    exact .inr ⟨hc.isCold_eq_false.1, hc.isCold_eq_false.2,
      fun hstarted => by cases hc.isStarted_eq_false.symm.trans hstarted⟩
  | answered hhandle hbegin =>
    rw [hbegin]
    exact .inr ⟨by rcases hhandle with hhandle | hhandle <;> rw [hhandle] <;> rfl, rfl, nofun⟩
  | told hhandle hbegin =>
    rw [hbegin, hhandle]
    exact .inr ⟨rfl, rfl, nofun⟩
  | ignored _ _ hbegin =>
    rw [hbegin]
    exact .inl rfl

theorem moves_poll (w : Waker) (c : Consumer V) : c.handle.Moves (c.poll w).1.handle := by
  cases c.polls w with
  | mono hhandle _ hpoll | maybe hhandle _ hpoll =>
    rw [hpoll, hhandle]
    exact .inr ⟨rfl, rfl, fun _ => rfl⟩
  | pending _ _ hpoll | future _ _ hpoll | stream _ _ hpoll | done _ hpoll | ignored hpoll =>
    rw [hpoll]
    exact .inl rfl

theorem moves_fetch (c : Consumer V) : c.handle.Moves c.fetch.1.handle := by
  cases c.fetches with
  | fetched hhandle _ hfetch =>
    rw [hfetch, hhandle]
    exact .inr ⟨rfl, rfl, nofun⟩
  | pending _ _ hfetch | ignored _ hfetch =>
    rw [hfetch]
    exact .inl rfl

theorem moves_expire (c : Consumer V) : c.handle.Moves c.expire.1.handle := by
  cases c.expires with
  | delivered hhandle _ hexpire | handedBack hhandle _ hexpire | givenUp hhandle _ hexpire =>
    rw [hexpire, hhandle]
    exact .inr ⟨rfl, rfl, nofun⟩
  | unbounded _ _ _ hexpire =>
    rw [hexpire]
    exact .inl rfl

theorem moves_complete (c : Consumer V) : c.handle.Moves c.complete.handle := by
  unfold complete
  split
  next hhandle =>
    rw [handle_register]
    exact .inr ⟨by rw [hhandle]; rfl, rfl, nofun⟩
  next => exact .inl rfl

end Consumer

/-! ## Handles and launches -/

/-- The handle of a reservation tells whether it was launched. -/
structure Reservation.Aligned (x : Reservation V) : Prop where
  /-- A computation that was not launched has a handle that has not started it, and the other way
  round. -/
  captured_iff : x.phase = .captured ↔ x.consumer.handle.isCold = true
  /-- A handle that starts on demand has started its computation by a launch. -/
  launches_eq : x.consumer.handle.isStarted = true → x.launches = 1
  /-- No computation is launched twice. -/
  launches_le : x.launches ≤ 1

namespace Reservation

variable {x x' : Reservation V}

/-- Only a handle that has not started its computation is that of one that was not launched. -/
theorem Aligned.ne_captured (hx : x.Aligned) (hcold : x.consumer.handle.isCold = false) :
    x.phase ≠ .captured :=
  fun hphase => by simp [hx.captured_iff.mp hphase] at hcold

/-- A handle that gives the computation up has started it. -/
theorem isCold_of_givesUp {h : Handle} (hgives : Consumer.givesUp h = true) : h.isCold = false := by
  unfold Consumer.givesUp at hgives
  split at hgives <;> first | rfl | cases hgives

/-- A handle that moves on without a launch tells what it has told before. -/
theorem Aligned.moves (hx : x.Aligned) (hphase : x'.phase = x.phase)
    (hlaunches : x'.launches = x.launches)
    (hmoves : x.consumer.handle.Moves x'.consumer.handle) : x'.Aligned where
  captured_iff := by
    rw [hphase, hx.captured_iff]
    rcases hmoves with heq | ⟨hcold, hcold', -⟩
    · rw [heq]
    · simp [hcold, hcold']
  launches_eq hstarted := by
    rw [hlaunches]
    rcases hmoves with heq | ⟨-, -, hback⟩
    · exact hx.launches_eq (heq ▸ hstarted)
    · exact hx.launches_eq (hback hstarted)
  launches_le := hlaunches ▸ hx.launches_le

/-- A reservation that is turned into a handle is still one that was not launched. -/
theorem Aligned.reshape (hx : x.Aligned) (shape : Shape) :
    { x with consumer := x.consumer.reshape shape }.Aligned := by
  by_cases hhandle : x.consumer.handle = .reservation
  · have hcold : x.consumer.handle.isCold = true := by rw [hhandle]; rfl
    have hidle : (x.consumer.reshape shape).handle = shape.idle := by
      simp [Consumer.reshape, hhandle]
    refine ⟨⟨fun _ => ?_, fun _ => hx.captured_iff.mpr hcold⟩, fun hstarted => ?_, hx.launches_le⟩
    · rw [hidle]
      cases shape <;> rfl
    · rw [hidle] at hstarted
      cases shape <;> cases hstarted
  · exact hx.moves rfl rfl (.inl (by simp [Consumer.reshape]))

/-- Dropping the handle of a computation that was not launched gives it up, and of
another one leaves it. -/
theorem Aligned.dropHandle (hx : x.Aligned) : x.dropHandle.Aligned := by
  have hgone := Consumer.handle_drop x.consumer
  -- Whatever the handle was, it is gone afterwards.
  have hmoves (hcold : x.consumer.handle.isCold = false) :
      x.consumer.handle.Moves x.consumer.drop.handle :=
    .inr ⟨hcold, by rw [hgone]; rfl, fun hstarted => by rw [hgone] at hstarted; cases hstarted⟩
  unfold Reservation.dropHandle
  split
  next hgives => exact hx.moves rfl rfl (hmoves (isCold_of_givesUp hgives))
  next =>
    split
    next =>
      refine ⟨⟨by simp, fun hcold => ?_⟩, fun hstarted => ?_, hx.launches_le⟩
      · rw [hgone] at hcold
        cases hcold
      · rw [hgone] at hstarted
        cases hstarted
    next hphase =>
      exact hx.moves rfl rfl (hmoves (Bool.eq_false_iff.mpr (mt hx.captured_iff.mpr hphase)))

/-- An operation launches a computation only if that was not launched, and the handle tells. -/
theorem Aligned.operate (hx : x.Aligned) (hsound : x.Sound) (a : Action V) :
    (x.operate a).Aligned := by
  cases a with
  | reshape r shape => exact hx.reshape shape
  | use r u =>
    unfold Reservation.operate
    dsimp only
    -- If the operation launches, the handle was one that has not started the computation.
    by_cases hlaunch : (x.consumer.begin u).launch = true
    · have hphase := hx.captured_iff.mpr (Consumer.isCold_of_launch_begin hlaunch)
      have hlaunches := hsound.captured hphase
      rw [if_pos ⟨hlaunch, hphase⟩, hlaunches]
      refine ⟨⟨by simp, fun hcold => ?_⟩, fun _ => rfl, Nat.le_refl 1⟩
      rw [Consumer.isCold_begin_of_launch hlaunch] at hcold
      cases hcold
    · rw [if_neg fun h => hlaunch h.1]
      exact hx.moves rfl rfl (Consumer.moves_begin (Bool.eq_false_iff.mpr hlaunch))
  | poll r w => exact hx.moves rfl rfl (Consumer.moves_poll w _)
  | fetch r => exact hx.moves rfl rfl (Consumer.moves_fetch _)
  | expire r => exact hx.moves rfl rfl (Consumer.moves_expire _)
  | complete r => exact hx.moves rfl rfl (Consumer.moves_complete _)
  | cancel r => exact hx.moves rfl rfl (.inl rfl)
  | drop r => exact hx.dropHandle
  | _ => exact hx

end Reservation

namespace System

variable {w : System V} {a : Action V} {r : ReservationId} {x x' : Reservation V}

/-- Only an operation on the handle takes a reservation away from its caller. -/
theorem Change.captured_iff (h : w.Change r a x x') (hby : ¬w.Handles r a)
    (ha : a.handle? ≠ some r) : x'.phase = .captured ↔ x.phase = .captured := by
  cases h with
  | handle | attach | letGo | abort => exact Iff.rfl
  | discard _ hby' => exact absurd hby' hby
  | launch _ hu =>
    obtain ⟨u, rfl⟩ := hu
    exact absurd rfl ha
  | clearDirectly _ hdirect => exact absurd (by rw [hdirect]; rfl) ha
  | refuse _ _ hphase | clear hphase | queue hphase | lose hphase | start hphase =>
    exact ⟨nofun, fun h => by cases hphase.symm.trans h⟩
  | advance _ hphase | engage _ hphase =>
    exact ⟨nofun, fun h => by rw [h] at hphase; rcases hphase with h | ⟨h, -⟩ <;> cases h⟩
  | pause _ hphase | finish hphase | drop _ hphase =>
    exact ⟨nofun, fun h => by rw [h] at hphase; cases hphase⟩

/-- Only the beginning of an operation launches a computation. -/
theorem Change.launches_eq (h : w.Change r a x x') (ha : ∀ u, a ≠ .use r u) :
    x'.launches = x.launches := by
  cases h with
  | launch _ hu =>
    obtain ⟨u, hu⟩ := hu
    exact absurd hu (ha u)
  | handle | attach | refuse | clear | clearDirectly | queue | lose | letGo | abort | discard
  | start | advance | pause | engage | finish | drop => rfl

/-- Only the beginning of an operation launches a computation. -/
theorem Changes.launches_eq (h : w.Changes r a x x') (ha : ∀ u, a ≠ .use r u) :
    x'.launches = x.launches :=
  h.preserve (P := fun y => y.launches = x.launches)
    (fun _ _ hchange hy => (hchange.launches_eq ha).trans hy) rfl

/-- An action that does nothing with the handle leaves it telling what it tells. -/
theorem Changes.aligned (h : w.Changes r a x x') (hby : ¬w.Handles r a)
    (ha : a.handle? ≠ some r) (hx : x.Aligned) : x'.Aligned := by
  have hcaptured : x'.phase = .captured ↔ x.phase = .captured :=
    h.preserve (P := fun y => y.phase = .captured ↔ x.phase = .captured)
      (fun _ _ hchange hy => (hchange.captured_iff hby ha).trans hy) Iff.rfl
  have hlaunches := h.launches_eq fun u hu => ha (by rw [hu]; rfl)
  have hhandle := h.handle_eq hby
  refine ⟨?_, ?_, hlaunches ▸ hx.launches_le⟩
  · rw [hcaptured, hhandle, hx.captured_iff]
  · rw [hhandle, hlaunches]
    exact hx.launches_eq

/-- Running a computation directly leaves its caller with an operation that waits. -/
theorem aligned_runDirectly (hx : w.reservations[r]? = some x) (haligned : x.Aligned)
    (hoffered : isOffered x = true) (hx' : (w.runDirectly r).reservations[r]? = some x') :
    x'.Aligned := by
  by_cases hhandle : x.consumer.handle = .reservation
  · have hphase : x.phase = .captured := haligned.captured_iff.mpr (by rw [hhandle]; rfl)
    rw [getElem?_runDirectly hx hoffered hphase hhandle] at hx'
    obtain rfl := Option.some.inj hx'
    split
    · exact ⟨⟨nofun, nofun⟩, nofun, haligned.launches_le⟩
    · refine ⟨⟨nofun, fun hcold => ?_⟩, fun hstarted => ?_, haligned.launches_le⟩
      · simp [Reservation.conclude, Handle.isCold] at hcold
      · simp [Reservation.conclude, Handle.isStarted] at hstarted
  · rw [runDirectly_eq_self hx hhandle] at hx'
    obtain rfl := Option.some.inj (hx.symm.trans hx')
    exact haligned

/-- A reservation that is added has a handle that tells whether it was launched. -/
theorem New.aligned (h : w.New a x) : x.Aligned := by
  cases h with
  | reserve => exact ⟨⟨fun _ => rfl, fun _ => rfl⟩, nofun, Nat.zero_le 1⟩
  | @await _ _ access =>
    exact ⟨⟨nofun, fun hcold => by cases access <;> cases hcold⟩, fun _ => rfl, Nat.le_refl 1⟩

/-- In every run, the handle of a reservation tells whether it was launched. -/
theorem aligned_run {actions : List (Action V)}
    (h : (run {} actions).reservations[r]? = some x) : x.Aligned := by
  have hstarted := started_run h
  induction h using run_induction with
  | start h => cases h
  | new _ _ hnew => exact hnew.aligned
  | @act actions a x y h hy hchanges ih =>
    have hold := ih (started_run hy)
    by_cases hparent : x.parent = none
    · rw [(Changes.grows hchanges).parent_eq] at hparent
      by_cases ha : a.handle? = some r
      · -- It is an operation of the caller.
        by_cases hoffered : isOffered y = true
        · by_cases hdirect : a = .runDirectly r
          · subst hdirect
            exact aligned_runDirectly hy hold hoffered h
          · rw [getElem?_act_of_offered ha hdirect hy hoffered] at h
            obtain rfl := Option.some.inj h
            exact hold.operate (sound_run hy) a
        · rw [act_of_not_offered ha fun z hz => by
            obtain rfl := Option.some.inj (hy.symm.trans hz)
            exact Bool.eq_false_iff.mpr hoffered] at h
          obtain rfl := Option.some.inj (hy.symm.trans h)
          exact hold
      · refine Changes.aligned hchanges (fun hby => ha ?_) ha hold
        exact (hby.caller_of_parent_eq_none hy hparent).1
    · -- A computation that makes a reservation launches it at once.
      have hcold := hstarted.isCold_eq_false hparent
      have hlaunches := hstarted.launches_eq hparent
      exact ⟨⟨fun hphase => absurd hphase (hstarted.ne_captured hparent),
        fun h => absurd h (by rw [hcold]; nofun)⟩, fun _ => hlaunches, Nat.le_of_eq hlaunches⟩

/-! ## Launches -/

end System

/-- Whether the action begins an operation that launches the computation of `r`, which is `x`. -/
def Action.starts (r : ReservationId) (x : Reservation V) : Action V → Bool
  | .use q u => q == r && System.isOffered x && (x.consumer.begin u).launch
  | _ => false

/-- Nothing was done with the computation, except that it may have been dropped. -/
def Reservation.Untouched (x : Reservation V) : Prop :=
  x.phase = .captured ∨ x.phase = .dropped ∧ x.position = 0 ∧ x.events = [.dropped]

namespace System

variable {w : System V} {a : Action V} {r : ReservationId} {x x' : Reservation V}

/-- An action launches a computation exactly if it is the first operation that needs it. -/
theorem launches_act {actions : List (Action V)} (h : (run {} actions).reservations[r]? = some x)
    (hx' : ((run {} actions).act a).reservations[r]? = some x') :
    x'.launches = x.launches + if a.starts r x then 1 else 0 := by
  have haligned := aligned_run h
  have hchanges := changes_of_act h hx'
  -- Nothing but the use of a handle launches a computation.
  by_cases hu : ∃ u, a = .use r u
  · obtain ⟨u, rfl⟩ := hu
    by_cases hoffered : isOffered x = true
    · rw [getElem?_act_of_offered rfl (by nofun) h hoffered] at hx'
      obtain rfl := Option.some.inj hx'
      by_cases hlaunch : (x.consumer.begin u).launch = true
      · have hphase := haligned.captured_iff.mpr (Consumer.isCold_of_launch_begin hlaunch)
        simp [Reservation.operate, Action.starts, hoffered, hlaunch, hphase]
      · simp [Reservation.operate, Action.starts, hlaunch]
    · rw [act_of_not_offered rfl fun z hz => by
        obtain rfl := Option.some.inj (h.symm.trans hz)
        exact Bool.eq_false_iff.mpr hoffered] at hx'
      obtain rfl := Option.some.inj (h.symm.trans hx')
      simp [Action.starts, hoffered]
  · have hstarts : a.starts r x = false := by
      cases a with
      | use q u =>
        have hne : q ≠ r := fun hq => hu ⟨u, by rw [hq]⟩
        simp [Action.starts, hne]
      | _ => rfl
    rw [hstarts]
    exact hchanges.launches_eq fun u ha => hu ⟨u, ha⟩

/-- Before the launch nothing is done with a computation, unless it is run directly. -/
theorem Change.untouched (h : w.Change r a x x') (ha : a ≠ .runDirectly r) (hsound : x.Sound)
    (hx : x.launches = 0 → x.Untouched) : x'.launches = 0 → x'.Untouched := by
  intro hzero
  -- A computation that is past the capture and was not dropped is not untouched.
  have late (hx : x.Untouched) (hcaptured : x.phase ≠ .captured) (hdropped : x.phase ≠ .dropped) :
      x'.Untouched := by
    rcases hx with h | ⟨h, -⟩
    · exact absurd h hcaptured
    · exact absurd h hdropped
  cases h with
  | handle | attach | letGo | abort => exact hx hzero
  | launch => cases hzero
  | clearDirectly _ hdirect => exact absurd hdirect ha
  | discard hphase =>
    obtain ⟨hposition, hevents⟩ := hsound.fresh (by rw [hphase]; rfl)
    exact .inr ⟨rfl, hposition, by rw [hevents]; rfl⟩
  | refuse _ _ hphase | clear hphase | queue hphase | lose hphase | start hphase =>
    exact late (hx hzero) (by rw [hphase]; nofun) (by rw [hphase]; nofun)
  | advance _ hphase | engage _ hphase =>
    refine late (hx hzero) (fun h => ?_) (fun h => ?_)
    all_goals
      rw [h] at hphase
      rcases hphase with h | ⟨h, -⟩ <;> cases h
  | pause _ hphase | finish hphase | drop _ hphase =>
    exact late (hx hzero) (fun h => by rw [h] at hphase; cases hphase)
      (fun h => by rw [h] at hphase; cases hphase)

/-- In a run that does not run the computation directly, nothing is done with it before the
launch. -/
theorem untouched_run {actions : List (Action V)} (hdirect : .runDirectly r ∉ actions)
    (h : (run {} actions).reservations[r]? = some x) (hzero : x.launches = 0) : x.Untouched := by
  induction h using run_induction with
  | start h => cases h
  | new _ _ hnew =>
    cases hnew with
    | reserve => exact .inl rfl
    | await => cases hzero
  | act _ hy hchanges ih =>
    rw [List.mem_append, List.mem_singleton, not_or] at hdirect
    refine (Changes.preserve (P := fun z => z.Sound ∧ (z.launches = 0 → z.Untouched))
      (fun z z' hchange hz => ?_) hchanges ⟨sound_run hy, ih hdirect.1⟩).2 hzero
    exact ⟨hz.1.change hchange, hchange.untouched (Ne.symm hdirect.2) hz.1 hz.2⟩

end System

/-! ## What a handle tells -/

/-- What a status says about whether the computation was started, if it says anything. -/
def Status.started? : Status → Option Bool
  | .mono _ stage => some stage.isStarted
  | .maybe _ started | .stream _ started => some started
  | _ => none

/-- Whether an operation of a session only asks what a scope or a handle is like. -/
def Operation.asks : Operation V → Bool
  | .status _ | .term _ | .scopeState _ | .scopeTerm _ => true
  | _ => false

/-- A handle that starts on demand tells whether the computation was launched. -/
theorem Reservation.Aligned.isStarted_iff {x : Reservation V} (haligned : x.Aligned)
    (hsound : x.Sound) {stage : Stage} (hcold : x.consumer.handle.isCold = !stage.isStarted)
    (hhot : x.consumer.handle.isStarted = stage.isStarted) :
    stage.isStarted = true ↔ x.launches = 1 := by
  constructor
  · intro h
    exact haligned.launches_eq (hhot.trans h)
  · intro hone
    by_contra hidle
    rw [Bool.eq_false_iff.mpr hidle, Bool.not_false] at hcold
    have hzero := hsound.captured (haligned.captured_iff.mpr hcold)
    rw [hzero] at hone
    cases hone

/-- A status says that the computation was started exactly if it was launched. -/
theorem System.started_iff {actions : List (Action V)} {r : ReservationId} {x : Reservation V}
    (h : (run {} actions).reservations[r]? = some x) {s : Status} {started : Bool}
    (hs : (run {} actions).status? r = some s) (hstarted : s.started? = some started) :
    started = true ↔ x.launches = 1 := by
  have haligned := aligned_run h
  have hsound := sound_run h
  unfold status? at hs
  rw [h, Option.bind_eq_bind, Option.bind_some] at hs
  dsimp only at hs
  -- Only the handles that go through stages tell whether they were started.
  split at hs
  next =>
    obtain ⟨scope, -, hs⟩ := Option.bind_eq_some_iff.mp hs
    obtain rfl := Option.some.inj hs
    cases hstarted
  next =>
    obtain rfl := Option.some.inj hs
    cases hstarted
  case h_3 stage hhandle | h_4 stage hhandle | h_5 stage hhandle =>
    obtain rfl := Option.some.inj hs
    obtain rfl := Option.some.inj hstarted
    exact haligned.isStarted_iff hsound (by rw [hhandle]; cases stage <;> rfl)
      (by rw [hhandle]; rfl)
  next =>
    obtain rfl := Option.some.inj hs
    cases hstarted
  next => cases hs
  next => cases hs

/-- Asking changes nothing. -/
theorem Session.eq_of_perform {s s' : Session V} {q : Request V} {reply : Reply V}
    (hasks : q.operation.asks = true) (h : s.perform q = some (s', reply)) : s' = s := by
  obtain ⟨operation, inside, meanwhile⟩ := q
  cases operation with
  | status | term | scopeState | scopeTerm =>
    -- The answer is looked up by the reference given, and the session handed back with it.
    obtain ⟨id, -, h⟩ := Option.bind_eq_some_iff.mp h
    obtain ⟨answer, -, h⟩ := Option.bind_eq_some_iff.mp h
    exact (Prod.mk.inj (Option.some.inj h)).1.symm
  | _ => cases hasks

/-! ## Runs -/

namespace System

variable {r : ReservationId} {x : Reservation V}

/-- In the run so far, the computation of the reservation `x` of number `r` was launched at most
once, by the first operation that asked for it, and has gone on from there step by step. -/
structure Laziness (actions : List (Action V)) (r : ReservationId) (x : Reservation V) : Prop where
  /-- The computation is launched at most once. -/
  launches_le : x.launches ≤ 1
  /-- Nothing of it is carried out before it is launched, unless its caller takes it out of the
  reservation and runs it directly. -/
  untouched : x.launches = 0 → .runDirectly r ∉ actions →
    x.position = 0 ∧ x.rest = x.computation ∧ x.produced = []
  /-- An action launches it exactly if it begins an operation for which the handle has to. -/
  launches_act : ∀ a x', ((run {} actions).act a).reservations[r]? = some x' →
    x'.launches = x.launches + if a.starts r x then 1 else 0
  /-- A handle that starts on demand has to at the first operation that it offers. -/
  starts_idle : ∀ (shape : Shape) (u : Use), x.consumer.handle = shape.idle →
    (Action.use r u).starts r x = shape.offers u
  /-- The status of a handle says that the computation was started exactly if it was launched. -/
  started_iff : ∀ s started, (run {} actions).status? r = some s → s.started? = some started →
    (started = true ↔ x.launches = 1)
  /-- To ask for a status changes nothing. -/
  asks : ∀ (s s' : Session V) (q : Request V) (reply : Reply V), q.operation.asks = true →
    s.perform q = some (s', reply) → s' = s
  /-- The events are what the computation has produced, and possibly that it was dropped. -/
  events_eq : x.events = x.produced ++ if x.phase = .dropped then [.dropped] else []
  /-- What it has produced is the beginning of the report of its steps in their order, and the whole
  report if the outcome is a value or a panic. -/
  produced_prefix : ∃ name results, (run {} actions).threadName? x.scope = some name ∧
    x.produced <+: .start :: x.computation.trace name results ∧
    ((∃ v, .ok v ∈ x.outcomes) ∨ (∃ m, .error (.panicked m) ∈ x.outcomes) →
      x.produced = .start :: x.computation.trace name results)
  /-- It has produced nothing if the scope was closed. -/
  refused : .error .scopeClosed ∈ x.outcomes → x.produced = []

/-- A computation that nothing was done with has taken no step, and has produced nothing. -/
theorem produced_eq_nil_of_untouched (hx : x.Untouched) (hsound : x.Sound) :
    x.position = 0 ∧ x.rest = x.computation ∧ x.produced = [] := by
  have unmoved (hposition : x.position = 0) : x.rest = x.computation := by
    rw [hsound.rest_eq, hposition]
    rfl
  rcases hx with hphase | ⟨-, hposition, hevents⟩
  · obtain ⟨hposition, hevents⟩ := hsound.fresh (by rw [hphase]; rfl)
    exact ⟨hposition, unmoved hposition, by rw [Reservation.produced, hevents]; rfl⟩
  · exact ⟨hposition, unmoved hposition, by rw [Reservation.produced, hevents]; rfl⟩

/-- A handle that starts on demand launches its computation at the first operation that it
offers. -/
theorem starts_of_idle {actions : List (Action V)} (h : (run {} actions).reservations[r]? = some x)
    {shape : Shape} (hidle : x.consumer.handle = shape.idle) (u : Use) :
    (Action.use r u).starts r x = shape.offers u := by
  -- Nobody but a caller has such a handle, and it is offered until it is used.
  have hcold : x.consumer.handle.isCold = true := by
    rw [hidle]
    cases shape <;> rfl
  have hphase := (aligned_run h).captured_iff.mpr hcold
  have hparent : x.parent = none := by
    by_contra hne
    exact (started_run h).ne_captured hne hphase
  have hoffered : isOffered x = true := by simp [isOffered, hparent, hphase]
  simp [Action.starts, hoffered, Consumer.launch_begin_of_idle hidle]

/-- In every run, a computation is launched at most once, by the first operation that asks for it,
and reports its steps in their order from then on. -/
theorem laziness_run {actions : List (Action V)}
    (h : (run {} actions).reservations[r]? = some x) : Laziness actions r x := by
  have hsound := sound_run h
  obtain ⟨name, hname, htraced⟩ := traced_run h
  obtain ⟨results, hprefix, hwhole⟩ := htraced.exists_prefix hsound
  exact
    { launches_le := (aligned_run h).launches_le
      untouched := fun hzero hdirect =>
        produced_eq_nil_of_untouched (untouched_run hdirect h hzero) hsound
      launches_act := fun _ _ => launches_act h
      starts_idle := fun _ u hidle => starts_of_idle h hidle u
      started_iff := fun _ _ => started_iff h
      asks := fun _ _ _ _ => Session.eq_of_perform
      events_eq := (htraced.produced_cases hsound).1
      produced_prefix := by
        refine ⟨name, results, hname, hprefix, fun houtcome => hwhole ?_⟩
        rcases houtcome with ⟨v, hv⟩ | ⟨m, hm⟩
        · exact ((hsound.ok_mem_outcomes_iff v).mp hv).phase_eq
        · obtain ⟨p, hran, -⟩ := (hsound.panicked_mem_outcomes_iff m).mp hm
          exact hran.phase_eq
      refused := fun hclosed => by
        rw [Reservation.produced, (hsound.refused_of_mem hclosed).events_eq]
        rfl }

/-- A run in which a mono is polled twice before its computation comes to a gate. -/
def polledTwice : List (Action Nat) :=
  [.addPool { threadName := "worker", workers := 1 }, .borrow "scope" 0,
    .reserve 0 none "a" (.mark 3 (.gate "door" (.finish (.value 7)))), .reshape 0 .mono,
    .use 0 .poll, .testClosed 0, .spawn 0, .letGo 0, .poll 0 (.named "first"), .use 0 .poll,
    .poll 0 (.named "second"), .resume 0, .step 0, .step 0]

/-- It is launched once, and has reported its first step. -/
theorem laziness_polledTwice : ∃ x, (run {} polledTwice).reservations = [x] ∧ x.launches = 1 ∧
    x.events = [.start, .mark 3] ∧ Laziness polledTwice 0 x :=
  ⟨_, rfl, rfl, rfl, laziness_run rfl⟩

/-- A run in which a caller takes the computation out of a reservation and runs it directly. -/
def takenOut : List (Action Nat) :=
  [.addPool { threadName := "worker", workers := 1 }, .borrow "scope" 0,
    .reserve 0 none "a" (.mark 3 (.finish (.value 7))), .runDirectly 0, .resume 0, .step 0]

/-- The computation has taken its step without having been launched. -/
theorem launches_takenOut : ∃ x, (run {} takenOut).reservations = [x] ∧ x.launches = 0 ∧
    x.position = 1 ∧ x.events = [.start, .mark 3] :=
  ⟨_, rfl, rfl, rfl, rfl⟩

end System

end Deferral
