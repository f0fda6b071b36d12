import Deferral.Session.Report
import Deferral.Proofs.System.Soundness

/-!
# What computations report

A computation that is carried to its end reports that it was started, then what its steps report,
one after the other, and then how it has ended. Whatever else happens in a run, the events of a
reservation are the beginning of such a report, possibly with the note that the computation was
dropped.

Main statements:
* `Computation.trace_eq_append`: the report of a computation is that of its first steps and that of
  what comes after them.
* `traced_run`: in every run, the events of a reservation tell how far its computation has come.
-/

namespace Deferral

variable {V : Type}

namespace Computation

variable {S : Type}

/-- What a computation that is carried to its end reports on threads of the given name. Its `i`-th
step gets `results i`, if it is one that waits for a nested reservation. -/
def trace (name : String) : Computation S V → (Nat → Delivery V) → List (Event V)
  | finish e, _ => [e.event]
  | gate g rest, results => .passed g :: rest.trace name fun i => results (i + 1)
  | mark v rest, results => .mark v :: rest.trace name fun i => results (i + 1)
  | thread rest, results => .thread name :: rest.trace name fun i => results (i + 1)
  | await _ _ _ rest, results => .inner (results 0) :: rest.trace name fun i => results (i + 1)
  | yield rest, results | sleep _ rest, results | shutdown _ rest, results
  | dropScope _ rest, results => rest.trace name fun i => results (i + 1)

/-- What the first `n` steps of a computation report. -/
def stepsTrace (name : String) (c : Computation S V) (results : Nat → Delivery V) (n : Nat) :
    List (Event V) :=
  (List.range n).flatMap fun i => (c.after i).reported name (results i)

variable {c : Computation S V} {name : String} {results results' : Nat → Delivery V} {n : Nat}

/-- The first step reports before all others. -/
theorem trace_of_hasStep (h : c.hasStep = true) :
    c.trace name results =
      c.reported name (results 0) ++ c.tail.trace name fun i => results (i + 1) := by
  cases c with
  | finish => cases h
  | _ => rfl

/-- The report of a computation is that of its first steps and that of what comes after them. -/
theorem trace_eq_append (h : ∀ i < n, (c.after i).hasStep = true) :
    c.trace name results =
      c.stepsTrace name results n ++ (c.after n).trace name fun i => results (n + i) := by
  induction n with
  | zero => simp [stepsTrace, after]
  | succ n ih =>
    have hstep := h n (Nat.lt_succ_self n)
    rw [ih fun i hi => h i (Nat.lt_succ_of_lt hi), trace_of_hasStep hstep, stepsTrace, stepsTrace,
      List.range_succ, List.flatMap_append, List.append_assoc]
    simp only [List.flatMap_cons, List.flatMap_nil, List.append_nil, Nat.add_zero, after,
      Nat.add_comm, Nat.add_left_comm]

/-- A further step reports after those before it. -/
theorem stepsTrace_succ :
    c.stepsTrace name results (n + 1) =
      c.stepsTrace name results n ++ (c.after n).reported name (results n) := by
  simp [stepsTrace, List.range_succ]

/-- What the first steps report depends on their results only. -/
theorem stepsTrace_congr (h : ∀ i < n, results i = results' i) :
    c.stepsTrace name results n = c.stepsTrace name results' n := by
  unfold stepsTrace
  refine List.flatMap_congr fun i hi => ?_
  rw [h i (List.mem_range.mp hi)]

end Computation

namespace Reservation

/-- The computation of `x` was started, and `events` is what it has reported since. -/
def Reported (name : String) (x : Reservation V) (events : List (Event V)) : Prop :=
  ∃ results, events = .start :: x.computation.stepsTrace name results x.position

/-- The events of `x` tell how far its computation has come, on threads of the given name. -/
structure Traced (name : String) (x : Reservation V) : Prop where
  /-- Every step that is over is one of the computation. -/
  hasStep : ∀ i < x.position, (x.computation.after i).hasStep = true
  /-- If the computation waits for a gate, its next step is to pass that gate. -/
  waits : x.WaitsAtStep
  /-- A computation that is under way has reported what its steps report. -/
  running : (x.phase.isActive || x.phase.isPaused) = true → x.Reported name x.events
  /-- One that has come to its end has reported the end, too. -/
  ended : x.phase = .ended → ∃ e reported, x.rest = .finish e ∧ x.Reported name reported ∧
    x.events = reported ++ [e.event]
  /-- One that was dropped has reported what its steps report, if it was started at all. -/
  dropped : x.phase = .dropped → x.position = 0 ∧ x.events = [.dropped] ∨
    ∃ reported, x.Reported name reported ∧ x.events = reported ++ [.dropped]

/-- A computation that is started has taken no step. -/
theorem Reported.start (name : String) {x : Reservation V} (hposition : x.position = 0) :
    x.Reported name [.start] :=
  ⟨fun _ => .item none, by rw [hposition]; rfl⟩

/-- A further step reports after those before it. -/
theorem Reported.advance {name : String} {x x' : Reservation V} {events : List (Event V)}
    {d : Delivery V} (h : x.Reported name events) (hcomputation : x'.computation = x.computation)
    (hposition : x'.position = x.position + 1) :
    x'.Reported name (events ++ (x.computation.after x.position).reported name d) := by
  obtain ⟨results, rfl⟩ := h
  refine ⟨fun i => if i = x.position then d else results i, ?_⟩
  rw [hcomputation, hposition, Computation.stepsTrace_succ, if_pos rfl, List.cons_append]
  congr 2
  refine Computation.stepsTrace_congr fun i hi => ?_
  rw [if_neg (Nat.ne_of_lt hi)]

end Reservation

namespace System

variable {w : System V} {a : Action V} {r : ReservationId} {x x' : Reservation V}

/-- Every change reports what belongs to it. -/
theorem Change.traced {name : String} (h : w.Change r a x x')
    (hname : w.threadName? x.scope = some name) (hsound : x.Sound) (hx : x.Traced name) :
    x'.Traced name := by
  have hfresh := hsound.fresh
  -- A computation that has not begun has reported nothing (`hfresh`); one that runs
  -- adds to its report.
  cases h with
  | handle | attach | letGo | abort =>
    exact ⟨hx.hasStep, hx.waits, hx.running, hx.ended, hx.dropped⟩
  | launch | clear | clearDirectly | queue =>
    exact ⟨hx.hasStep, nofun, nofun, nofun, nofun⟩
  | refuse _ _ hphase | lose hphase | discard hphase =>
    obtain ⟨hposition, hevents⟩ := hfresh (by rw [hphase]; rfl)
    refine ⟨hx.hasStep, nofun, nofun, nofun, fun _ => .inl ⟨hposition, ?_⟩⟩
    show x.events ++ [.dropped] = [.dropped]
    rw [hevents, List.nil_append]
  | start hphase =>
    obtain ⟨hposition, hevents⟩ := hfresh (by rw [hphase]; rfl)
    refine ⟨hx.hasStep, nofun, fun _ => ?_, nofun, nofun⟩
    rw [hevents]
    exact .start name hposition
  | advance events hphase hrest hevents =>
    obtain ⟨d, rfl⟩ := hevents name hname hx.waits
    have hreported := hx.running (by simpa using hphase.imp_right And.left)
    rw [hsound.rest_eq] at hrest ⊢
    refine ⟨fun i hi => ?_, nofun, fun _ => hreported.advance rfl rfl, nofun, nofun⟩
    rcases Nat.lt_succ_iff_lt_or_eq.mp hi with hlt | rfl
    · exact hx.hasStep i hlt
    · exact hrest
  | pause pause hphase hfits =>
    refine ⟨hx.hasStep, fun g hg => ?_, fun _ => hx.running (by rw [hphase]; rfl), nofun, nofun⟩
    obtain rfl := Phase.paused.inj hg
    exact hfits
  | engage _ hphase =>
    exact ⟨hx.hasStep, nofun, fun _ => hx.running (by simpa using hphase.imp_right And.left),
      nofun, nofun⟩
  | @finish e hphase hrest =>
    exact ⟨hx.hasStep, nofun, nofun,
      fun _ => ⟨e, x.events, hrest, hx.running (by rw [hphase]; rfl), rfl⟩, nofun⟩
  | drop _ hphase =>
    refine ⟨hx.hasStep, nofun, nofun, nofun, fun _ => ?_⟩
    rcases Phase.eq_of_isSuspended hphase with hqueued | ⟨pause, hpaused⟩
    · obtain ⟨hposition, hevents⟩ := hfresh (by rw [hqueued]; rfl)
      exact .inl ⟨hposition, by rw [Reservation.conclude, hevents, List.nil_append]⟩
    · exact .inr ⟨x.events, hx.running (by rw [hpaused]; rfl), rfl⟩

/-- A scope goes on carrying computations out on threads of one name. -/
theorem Ages.threadName?_eq {w' : System V} {s : ScopeId} {name : String} (h : Ages w w')
    (hname : w.threadName? s = some name) : w'.threadName? s = some name := by
  unfold threadName? at hname ⊢
  obtain ⟨pool, hbind, rfl⟩ := Option.map_eq_some_iff.mp hname
  obtain ⟨scope, hscope, hpool⟩ := Option.bind_eq_some_iff.mp hbind
  obtain ⟨scope', hscope', haged⟩ := h.exists_scope hscope
  obtain ⟨pool', hpool', hname', -⟩ := h.pools _ pool hpool
  rw [hscope', Option.bind_some, haged.pool_eq, hpool', Option.map_some, hname']

/-- A reservation is on a scope that has threads. -/
theorem Valid.exists_threadName? (hw : w.Valid) (hx : w.reservations[r]? = some x) :
    ∃ name, w.threadName? x.scope = some name := by
  have hscope := List.getElem?_eq_getElem (hw.scope_lt r x hx x.scope List.mem_cons_self)
  have hpool := List.getElem?_eq_getElem (hw.pool_lt _ _ hscope)
  exact ⟨_, by rw [threadName?, hscope, Option.bind_some, hpool]; rfl⟩

/-- A reservation that is added has nothing to tell. -/
theorem New.traced (h : w.New a x) (name : String) : x.Traced name := by
  cases h <;> exact ⟨nofun, nofun, nofun, nofun, nofun⟩

/-- In every run, the events of a reservation tell how far its computation has come. -/
theorem traced_run {actions : List (Action V)}
    (h : (run {} actions).reservations[r]? = some x) :
    ∃ name, (run {} actions).threadName? x.scope = some name ∧ x.Traced name := by
  obtain ⟨name, hname⟩ := (valid_run actions).exists_threadName? h
  refine ⟨name, hname, ?_⟩
  induction h using run_induction with
  | start h => cases h
  | new _ _ hnew => exact hnew.traced name
  | @act actions a x y _ hy hchanges ih =>
    rw [run_concat] at hname
    obtain ⟨name', hname'⟩ := (valid_run actions).exists_threadName? hy
    -- The threads have the name that they had before.
    have hscope := (Changes.grows hchanges).scope_eq
    have hages := (ages_act (run {} actions) a).threadName?_eq hname'
    rw [hscope, hages] at hname
    obtain rfl := Option.some.inj hname
    refine (Changes.preserve (P := fun z => z.scope = y.scope ∧ z.Sound ∧ z.Traced name')
      (fun z z' hchange hz => ?_) hchanges ⟨rfl, sound_run hy, ih hname'⟩).2.2
    obtain ⟨hzscope, hsound, hz⟩ := hz
    exact ⟨hchange.grows.scope_eq.trans hzscope, hsound.change hchange,
      hchange.traced (by rw [hzscope, hname']) hsound hz⟩

end System

/-! ## Reports -/

/-- No step reports that the computation was dropped. -/
theorem Computation.isDropped_of_mem_reported {S : Type} {c : Computation S V} {name : String}
    {d : Delivery V} {e : Event V} (he : e ∈ c.reported name d) : e.isDropped = false := by
  cases c <;> simp only [reported, List.mem_singleton, List.not_mem_nil] at he <;> subst he <;>
    first | rfl | skip
  next ending => cases ending <;> rfl

namespace Reservation

variable {x : Reservation V} {name : String}

/-- What the computation itself has reported; that it was dropped is noted by others. -/
def produced (x : Reservation V) : List (Event V) :=
  x.events.filter fun e => !e.isDropped

/-- No part of what a computation reports is the note that it was dropped. -/
theorem Reported.filter_eq {events : List (Event V)} (h : x.Reported name events) :
    events.filter (fun e => !e.isDropped) = events := by
  obtain ⟨results, rfl⟩ := h
  refine List.filter_eq_self.mpr fun e he => ?_
  rw [Bool.not_eq_true']
  rcases List.mem_cons.mp he with rfl | hmem
  · rfl
  · obtain ⟨i, -, hi⟩ := List.mem_flatMap.mp hmem
    exact Computation.isDropped_of_mem_reported hi

/-- A computation has reported nothing, or what the steps so far report, or that and its end; the
only thing that others note is that it was dropped, as the last event. -/
theorem Traced.produced_cases (hx : x.Traced name) (hsound : x.Sound) :
    x.events = x.produced ++ (if x.phase = .dropped then [.dropped] else []) ∧
      (x.produced = [] ∧ x.phase ≠ .ended ∨ x.Reported name x.produced ∧ x.phase ≠ .ended ∨
        ∃ e reported, x.rest = .finish e ∧ x.Reported name reported ∧
          x.produced = reported ++ [e.event]) := by
  unfold produced
  rcases hphase : x.phase with _ | _ | _ | _ | pause | activity | _ | _
  -- It was not started.
  iterate 4
    rw [(hsound.fresh (by rw [hphase]; rfl)).2]
    exact ⟨rfl, .inl ⟨rfl, nofun⟩⟩
  -- It is under way.
  iterate 2
    have hreported := hx.running (by rw [hphase]; rfl)
    rw [hreported.filter_eq]
    exact ⟨(List.append_nil _).symm, .inr (.inl ⟨hreported, nofun⟩)⟩
  · obtain ⟨e, reported, hrest, hreported, hevents⟩ := hx.ended hphase
    have hend : [e.event].filter (fun e : Event V => !e.isDropped) = [e.event] := by
      cases e <;> rfl
    rw [hevents, List.filter_append, hreported.filter_eq, hend]
    exact ⟨(List.append_nil _).symm, .inr (.inr ⟨e, reported, hrest, hreported, rfl⟩)⟩
  · rcases hx.dropped hphase with ⟨-, hevents⟩ | ⟨reported, hreported, hevents⟩
    · rw [hevents]
      exact ⟨rfl, .inl ⟨rfl, nofun⟩⟩
    · have hnote : [Event.dropped].filter (fun e : Event V => !e.isDropped) = [] := rfl
      rw [hevents, List.filter_append, hreported.filter_eq, hnote, List.append_nil]
      exact ⟨rfl, .inr (.inl ⟨hreported, nofun⟩)⟩

/-- What a computation has reported is the beginning of what it reports if it is carried to its end,
and all of it when it has come to its end. -/
theorem Traced.exists_prefix (hx : x.Traced name) (hsound : x.Sound) :
    ∃ results, x.produced <+: .start :: x.computation.trace name results ∧
      (x.phase = .ended → x.produced = .start :: x.computation.trace name results) := by
  rcases (hx.produced_cases hsound).2 with ⟨hnil, hphase⟩ | ⟨hreported, hphase⟩ |
    ⟨e, reported, hrest, ⟨results, rfl⟩, hproduced⟩
  · exact ⟨fun _ => .item none, by rw [hnil]; exact List.nil_prefix, fun h => absurd h hphase⟩
  · obtain ⟨results, hresults⟩ := hreported
    refine ⟨results, ?_, fun h => absurd h hphase⟩
    rw [hresults, Computation.trace_eq_append hx.hasStep]
    exact List.prefix_append (Event.start :: _) _
  · -- What comes after the steps so far is the end.
    have htrace : x.produced = .start :: x.computation.trace name results := by
      rw [hproduced, Computation.trace_eq_append hx.hasStep, ← hsound.rest_eq, hrest]
      rfl
    exact ⟨results, htrace ▸ List.prefix_rfl, fun _ => htrace⟩

end Reservation

end Deferral
