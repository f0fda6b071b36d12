import Deferral.Proofs.System.Timeout

/-!
# Deadlines

What a caller can rely on that blocks for a limited time, whatever happens meanwhile and in whatever
order: a time-out is returned only if the outcome was not published at the last look, and then the
computation is given up for good; an outcome that was published by then is returned, and nothing is
given up. If the scope was closed when the launch looked at it, there is no time-out.

Main statements:
* `leadsTo_barred`: as long as its scope is closed, a computation is not launched or is refused.
* `deadline_run`: what a caller can rely on.
-/

namespace Deferral

variable {V : Type}

/-! ## Launches on a closed scope -/

/-- The computation was not launched, or its launch is to find the scope closed, or has found it
closed. -/
inductive Reservation.Barred (x : Reservation V) : Prop
  /-- It was not launched. -/
  | unlaunched (hlaunches : x.launches = 0) : Barred x
  /-- Its launch is to find the scope closed. -/
  | launching (hspawned : x.spawned = false) (hphase : x.phase = .launching) : Barred x
  /-- Its launch has found the scope closed. -/
  | refused (hspawned : x.spawned = false) (hphase : x.phase = .dropped)
      (houtcomes : x.outcomes = [.error .scopeClosed]) : Barred x

namespace System

variable {w : System V} {a : Action V} {r : ReservationId} {x x' : Reservation V}

/-- As long as the scope is closed, a launch is refused. -/
theorem Change.barred (h : w.Change r a x x') (hclosed : w.isClosed x.scope = true)
    (hsound : x.Sound) (hflagged : x.Flagged) (hx : x.Barred) : x'.Barred := by
  cases hx with
  | unlaunched hlaunches =>
    cases h with
    | launch hphase => exact .launching (hflagged.unlaunched (by rw [hphase]; rfl)).1 rfl
    | _ => exact .unlaunched hlaunches
  | launching hspawned hphase =>
    obtain ⟨_, _, _, rfl⟩ | ⟨-, rfl⟩ | ⟨hopen, -⟩ := h.cases_of_launching hphase
    · exact .launching hspawned hphase
    · refine .refused hspawned rfl ?_
      show x.outcomes ++ [.error .scopeClosed] = _
      rw [hsound.running (by rw [hphase]; rfl), List.nil_append]
    · cases hclosed.symm.trans hopen
  | refused hspawned hphase houtcomes =>
    obtain ⟨_, _, _, rfl⟩ := h.exists_eq_of_isOver (by rw [hphase]; rfl)
    exact .refused hspawned hphase houtcomes

/-- As long as its scope is closed, a computation is not launched, or is refused. -/
theorem leadsTo_barred {actions : List (Action V)} (hx : (run {} actions).reservations[r]? = some x)
    (hclosed : (run {} actions).isClosed x.scope = true) (hbarred : x.Barred)
    (further : List (Action V)) : (run {} actions).LeadsTo further r Reservation.Barred := by
  obtain ⟨x', hx', -⟩ := exists_grows_run hx further
  refine ⟨x', hx', ?_⟩
  induction hx' using run_induction_from hx with
  | start => exact hbarred
  | @act further _ y _ _ hy hgrows hchanges ih =>
    have hstill : ((run {} actions).run further).isClosed y.scope = true := by
      rw [hgrows.scope_eq]
      exact isClosed_run hclosed further
    obtain ⟨hsound, hflagged⟩ := sound_and_flagged_run hy
    -- The scope of a reservation does not change, so that each change finds it closed.
    have hkept := Changes.preserve
      (P := fun z => z.scope = y.scope ∧ z.Sound ∧ z.Flagged ∧ z.Barred)
      (fun z z' hchange hz => ⟨hchange.grows.scope_eq.trans hz.1, hz.2.1.change hchange,
        hchange.flagged hz.2.2.1, hchange.barred (hz.1 ▸ hstill) hz.2.1 hz.2.2.1 hz.2.2.2⟩)
      hchanges ⟨rfl, hsound, hflagged, ih⟩
    exact hkept.2.2.2

end System

/-- What a computation publishes is never a time-out. -/
theorem Reservation.Sound.ne_timedOut {x : Reservation V} (h : x.Sound) {o : Outcome V}
    (ho : x.outcomes.head? = some o) (d : Duration) : o ≠ .error (.timedOut d) := by
  rintro rfl
  obtain ⟨-, ⟨e, -, he⟩ | ⟨-, he⟩ | ⟨-, he⟩⟩ := h.outcomes_of_mem (List.mem_of_mem_head? ho)
  · cases e <;> cases he
  · cases he
  · cases he

namespace Timed

variable {t : Timed V} {r : ReservationId} {x x₀ : Reservation V} {d : Duration}
  {moves : List (Move V)} {l : List (Delivery V)}

/-- At some point of the moves the scope of the reservation `r` was closed, and no launch had yet
looked at it. -/
def LaunchedClosed (r : ReservationId) (moves : List (Move V)) : Prop :=
  ∃ early late x, moves = early ++ late ∧ (run {} early).system.reservations[r]? = some x ∧
    (x.phase = .captured ∨ x.phase = .launching) ∧ (run {} early).system.isClosed x.scope = true

/-- A launch that finds the scope closed is refused. -/
theorem LaunchedClosed.barred (h : LaunchedClosed r moves)
    (hx : (run {} moves).system.reservations[r]? = some x) : x.Barred := by
  obtain ⟨early, late, y, rfl, hy, hphase, hclosed⟩ := h
  obtain ⟨actions, hactions⟩ := rooted_run early
  obtain ⟨later, hlater⟩ := exists_system_run (run {} early) late
  rw [run_append, hlater, hactions] at hx
  rw [hactions] at hy hclosed
  have hbarred : y.Barred := by
    rcases hphase with hcaptured | hlaunching
    · exact .unlaunched ((System.sound_run hy).captured hcaptured)
    · exact .launching ((System.flagged_run hy).unlaunched (by rw [hlaunching]; rfl)).1 hlaunching
  obtain ⟨z, hz, hbarred'⟩ := System.leadsTo_barred hy hclosed hbarred later
  exact Option.some.inj (hz.symm.trans hx) ▸ hbarred'

/-- A call leaves the computation launched. -/
theorem launches_ne_call (hroot : t.Rooted) (hx : t.system.reservations[r]? = some x₀)
    (hoffered : System.isOffered x₀ = true)
    (hhandle : x₀.consumer.handle = .reservation ∨ ∃ stage, x₀.consumer.handle = .mono stage)
    (d : Duration) (further : List (Move V))
    (hx' : (t.run (call r d :: further)).system.reservations[r]? = some x) : x.launches ≠ 0 := by
  obtain ⟨actions, hactions⟩ := hroot
  have hsystem : (t.run [call r d]).system =
      (System.run {} actions).act (.use r (.block (some d))) := by
    rw [run_cons, run_nil, (step_call hx hhandle d).1, hactions]
  rw [hactions] at hx
  obtain ⟨y, hy, hcalled⟩ := System.exists_grows_run hx [.use r (.block (some d))]
  -- A mono that has been started was launched before, and the other handles are
  -- launched by the call.
  have hlaunched : y.launches ≠ 0 := by
    have hstarted (h : x₀.consumer.handle.isStarted = true) : y.launches ≠ 0 := by
      have hone := (System.aligned_run hx).launches_eq h
      exact Nat.one_le_iff_ne_zero.mp (hone ▸ hcalled.launches_le)
    rcases hhandle with hhandle | ⟨_ | _ | _, hhandle⟩
    · exact (System.blocked_of_launch hx hoffered (.inl hhandle) hy).2.1.launches_ne
    · exact (System.blocked_of_launch hx hoffered (.inr hhandle) hy).2.1.launches_ne
    · exact hstarted (by rw [hhandle]; rfl)
    · exact hstarted (by rw [hhandle]; rfl)
  have hgrows := grows_of_run (t := t.run [call r d]) (by rw [hsystem]; exact hy) hx'
  exact hgrows.launches_ne_zero hlaunched

/-! ## What follows from how a call stands -/

/-- A call returns at most once. -/
theorem Stands.length_le_one (h : Stands r d x₀ t moves x l) : l.length ≤ 1 := by
  cases h with
  | blocked | failed => exact Nat.zero_le 1
  | returned | gaveUp => exact Nat.le_refl 1

/-- A time-out that a call returns is its own, and the computation was given up. -/
theorem Stands.timedOut (h : Stands r d x₀ t moves x l) (hsound : x.Sound) {d' : Duration}
    (hmem : .outcome (.error (.timedOut d')) ∈ l) : d' = d ∧ GaveUp r t moves := by
  cases h with
  | blocked | failed => cases hmem
  | returned o _ _ _ _ hcause =>
    obtain rfl := Delivery.outcome.inj (List.mem_singleton.mp hmem)
    rcases hcause with hpublished | ⟨-, hspent⟩
    · exact absurd rfl (hsound.ne_timedOut hpublished d')
    · cases hspent
  | gaveUp _ _ _ hgaveUp =>
    cases List.mem_singleton.mp hmem
    exact ⟨rfl, hgaveUp⟩

/-- What else a call returns is the outcome, or that there is none any more. -/
theorem Stands.delivers (h : Stands r d x₀ t moves x l) {δ : Delivery V} (hmem : δ ∈ l)
    (hintime : ∀ d', δ ≠ .outcome (.error (.timedOut d'))) :
    r ∉ (t.run moves).requested ∧ x.aborted = x₀.aborted ∧ ∃ o, δ = .outcome o ∧
      (x.outcomes.head? = some o ∨ x₀.consumer.handle = .mono .done ∧ o = spent) := by
  cases h with
  | blocked | failed => cases hmem
  | returned o _ hspared haborted _ hcause =>
    exact ⟨hspared, haborted, o, List.mem_singleton.mp hmem, hcause⟩
  | gaveUp => exact absurd (List.mem_singleton.mp hmem) (hintime d)

/-- A look of a caller that blocks is answered with the outcome if that was published; if not, a
last look is in vain. -/
theorem Stands.looks (h : Stands r d x₀ t moves x []) (hroot : t.Rooted)
    (hx : (t.run moves).system.reservations[r]? = some x) (hfree : r ∉ (t.run moves).failed)
    (hsettled : x.isSettled = true) :
    (∀ o, x.outcomes.head? = some o → ∀ a, a = .fetch r ∨ a = .expire r →
      (t.run moves).handed r (.act a) = [.outcome o]) ∧
    (x.outcomes = [] → (t.run moves).handed r (.act (.expire r)) = [] ∧
      r ∈ ((t.run moves).step (.act (.expire r))).failed) := by
  cases h with
  | failed hfailed => exact absurd hfailed hfree
  | blocked _ _ _ hblocked =>
    have hoffered := System.isOffered_of_isSettled hblocked.parent_eq hsettled
    have hvain := System.isGivenUp_expireAnswer_iff hx hblocked hoffered
    refine ⟨fun o ho a ha => ?_, fun houtcomes => ?_⟩
    · have hpermits : (t.run moves).permits a = true := by
        rcases ha with rfl | rfl <;> simpa [permits] using hfree
      -- A look that finds the outcome is not in vain.
      have hspares : (t.run moves).inVain? a = none := by
        have hne : x.outcomes ≠ [] := fun hnil => by rw [hnil] at ho; cases ho
        rcases ha with rfl | rfl
        · rfl
        · simp [inVain?, hvain, hne]
      obtain ⟨actions, hactions⟩ := hroot.run moves
      rw [(step_act hpermits hspares r).2, hactions]
      rw [hactions] at hx
      obtain ⟨x', hx', -⟩ := System.exists_grows_run hx [a]
      exact (System.blocked_look hx hblocked hoffered ha ho hx').2.2.2
    · obtain ⟨hstep, hhanded⟩ := step_expire hfree (hvain.mpr houtcomes) r
      exact ⟨hhanded, by rw [hstep]; exact List.mem_cons_self⟩

/-- A caller that is to give up returns that he has timed out. -/
theorem Stands.leaves (h : Stands r d x₀ t moves x l)
    (hx : (t.run moves).system.reservations[r]? = some x) (hfailed : r ∈ (t.run moves).failed) :
    (t.run moves).handed r (.giveUp r) = [.outcome (.error (.timedOut d))] := by
  cases h with
  | blocked hfree | returned _ hfree | gaveUp hfree => exact absurd hfailed hfree
  | failed _ _ _ hblocked hsettled =>
    have hoffered := System.isOffered_of_isSettled hblocked.parent_eq hsettled
    exact handed_giveUp hx hoffered hblocked.handle_eq
      (System.ne_captured_of_isSettled hsettled) hfailed

/-- A call of which the launch is refused returns that the scope is closed, or that there is no
outcome any more, and does not give up. -/
theorem Stands.barred (h : Stands r d x₀ t moves x l) (hsound : x.Sound) (hbarred : x.Barred)
    (hlaunches : x.launches ≠ 0) :
    r ∉ (t.run moves).failed ∧ r ∉ (t.run moves).requested ∧
      (x.isSettled = true → x.outcomes.head? = some (.error .scopeClosed)) ∧
      ∀ δ ∈ l, δ = .outcome (.error .scopeClosed) ∨
        x₀.consumer.handle = .mono .done ∧ δ = .outcome spent := by
  -- A launch that is refused leaves no task, and without a task no caller is to give up.
  have hspawned : x.spawned = false := by
    cases hbarred with
    | unlaunched hzero => exact absurd hzero hlaunches
    | launching hspawned | refused hspawned => exact hspawned
  have hpublished : x.isSettled = true ∨ x.outcomes ≠ [] →
      x.outcomes.head? = some (.error .scopeClosed) := by
    cases hbarred with
    | unlaunched hzero => exact absurd hzero hlaunches
    | launching _ hphase =>
      have hunsettled : x.isSettled = false := by
        rw [Reservation.isSettled, hphase]
        rfl
      have hnil := hsound.running (by rw [hphase]; rfl)
      simp [hunsettled, hnil]
    | refused _ _ houtcomes =>
      rw [houtcomes]
      exact fun _ => rfl
  cases h with
  | blocked hfree hspared =>
    exact ⟨hfree, hspared, fun hsettled => hpublished (.inl hsettled), fun δ hδ => by cases hδ⟩
  | returned o hfree hspared _ _ hcause =>
    refine ⟨hfree, hspared, fun hsettled => hpublished (.inl hsettled), fun δ hδ => ?_⟩
    rw [List.mem_singleton.mp hδ]
    rcases hcause with ho | ⟨hdone, rfl⟩
    · have hclosed := hpublished (.inr fun hnil => by rw [hnil] at ho; cases ho)
      exact .inl (congrArg _ (Option.some.inj (ho.symm.trans hclosed)))
    · exact .inr ⟨hdone, rfl⟩
  | failed _ _ _ _ _ hspawned' | gaveUp _ _ hspawned' => cases hspawned.symm.trans hspawned'

/-! ## What a caller can rely on -/

/-- What the caller of the reservation `r` can rely on, which is `x` after the moves `before`, when
he blocks for at most `d` and any moves follow. -/
structure Deadline (r : ReservationId) (d : Duration) (before : List (Move V)) (x : Reservation V)
    (further : List (Move V)) : Prop where
  /-- The call returns at most once. -/
  once : (received r (run {} before) (call r d :: further)).length ≤ 1
  /-- A time-out that it returns is its own. It is returned only if no outcome had been
  published when the caller looked for the last time, and only after an abort that gives the
  computation up for good. -/
  timedOut : ∀ d', .outcome (.error (.timedOut d')) ∈ received r (run {} before) (call r d :: further) →
    d' = d ∧ GaveUp r (run {} before) (call r d :: further)
  /-- Whatever else it returns is the outcome that was published, or that a mono has none any more;
  and no abort was requested. -/
  delivers : ∀ δ ∈ received r (run {} before) (call r d :: further),
    (∀ d', δ ≠ .outcome (.error (.timedOut d'))) →
      r ∉ (run {} (before ++ call r d :: further)).requested ∧
      ∃ y, (run {} (before ++ call r d :: further)).system.reservations[r]? = some y ∧
        y.aborted = x.aborted ∧ ∃ o, δ = .outcome o ∧
          (y.outcomes.head? = some o ∨ x.consumer.handle = .mono .done ∧ o = spent)
  /-- As long as it has not returned and has not looked in vain for the last time, it returns the
  outcome at the first look at which that was published, and a last look before that is in vain. -/
  looks : received r (run {} before) (call r d :: further) = [] →
    r ∉ (run {} (before ++ call r d :: further)).failed →
    ∀ y, (run {} (before ++ call r d :: further)).system.reservations[r]? = some y →
      y.isSettled = true →
      (∀ o, y.outcomes.head? = some o → ∀ a, a = .fetch r ∨ a = .expire r →
        (run {} (before ++ call r d :: further)).handed r (.act a) = [.outcome o]) ∧
      (y.outcomes = [] → (run {} (before ++ call r d :: further)).handed r (.act (.expire r)) = [] ∧
        r ∈ ((run {} (before ++ call r d :: further)).step (.act (.expire r))).failed)
  /-- After a last look in vain it returns the time-out. -/
  leaves : r ∈ (run {} (before ++ call r d :: further)).failed →
    (run {} (before ++ call r d :: further)).handed r (.giveUp r) =
      [.outcome (.error (.timedOut d))]
  /-- If the scope was closed when the launch looked at it, the call returns that, whatever its
  limit, unless the mono has told so before; it does not look in vain, and no abort is requested. -/
  closed : LaunchedClosed r (before ++ call r d :: further) →
    r ∉ (run {} (before ++ call r d :: further)).failed ∧
    r ∉ (run {} (before ++ call r d :: further)).requested ∧
    (∀ y, (run {} (before ++ call r d :: further)).system.reservations[r]? = some y →
      y.isSettled = true → y.outcomes.head? = some (.error .scopeClosed)) ∧
    ∀ δ ∈ received r (run {} before) (call r d :: further), δ = .outcome (.error .scopeClosed) ∨
      x.consumer.handle = .mono .done ∧ δ = .outcome spent

/-- Whatever happens before a call that blocks for a limited time, and whatever happens after it,
its caller can rely on this. -/
theorem deadline_run {before : List (Move V)}
    (hx : (run {} before).system.reservations[r]? = some x) (hoffered : System.isOffered x = true)
    (hhandle : x.consumer.handle = .reservation ∨ ∃ stage, x.consumer.handle = .mono stage)
    (d : Duration) (further : List (Move V)) : Deadline r d before x further := by
  have hroot := rooted_run before
  obtain ⟨y, hy, hstands⟩ := stands_run hroot (lawful_run r before) hx hoffered hhandle d further
  have hrun : run {} (before ++ call r d :: further) = (run {} before).run (call r d :: further) :=
    run_append ..
  have hsound : y.Sound := by
    obtain ⟨actions, hactions⟩ := hroot.run (call r d :: further)
    rw [hactions] at hy
    exact System.sound_run hy
  -- What is said below is about the reservation as it is at the end.
  have hsame {z : Reservation V}
      (hz : ((run {} before).run (call r d :: further)).system.reservations[r]? = some z) : z = y :=
    Option.some.inj (hz.symm.trans hy)
  refine
    { once := hstands.length_le_one
      timedOut := fun _ hmem => hstands.timedOut hsound hmem
      delivers := fun δ hmem hintime => ?_
      looks := ?_
      leaves := fun hfailed => ?_
      closed := fun hclosed => ?_ }
  · obtain ⟨hspared, haborted, hdelivers⟩ := hstands.delivers hmem hintime
    rw [hrun]
    exact ⟨hspared, y, hy, haborted, hdelivers⟩
  · rw [hrun]
    intro hreceived hfree z hz hsettled
    rw [hreceived] at hstands
    obtain rfl := hsame hz
    exact hstands.looks hroot hy hfree hsettled
  · rw [hrun] at hfailed ⊢
    exact hstands.leaves hy hfailed
  · have hbarred := hclosed.barred (by rw [hrun]; exact hy)
    have hlaunches := launches_ne_call hroot hx hoffered hhandle d further hy
    obtain ⟨hfree, hspared, hsettled, hδ⟩ := hstands.barred hsound hbarred hlaunches
    rw [hrun]
    exact ⟨hfree, hspared, fun z hz h => hsame hz ▸ hsettled (hsame hz ▸ h), hδ⟩

/-- A scope, and a reservation on it whose computation waits at a door. -/
def waitingAtDoor : List (Move Nat) :=
  [.act (.build {}), .act (.reserve 0 none "a" (.gate "door" (.finish (.value 7))))]

/-- What happens after a call: the computation is launched and comes to the door, the caller
looks in vain for the last time, the door is opened and the outcome is published, and then
the caller gives up. -/
def tooLate : List (Move Nat) :=
  [.act (.testClosed 0), .act (.spawn 0), .act (.letGo 0), .act (.resume 0), .act (.step 0),
    .act (.expire 0), .act (.openGate "door"), .act (.resume 0), .act (.step 0), .giveUp 0]

/-- An outcome that is published between the last look and the abort is not handed out. -/
theorem deadline_tooLate : ∃ x y, (run {} waitingAtDoor).system.reservations = [x] ∧
    (run {} (waitingAtDoor ++ call 0 ⟨5⟩ :: tooLate)).system.reservations = [y] ∧ y.outcomes = [.ok 7] ∧
    received 0 (run {} waitingAtDoor) (call 0 ⟨5⟩ :: tooLate) = [.outcome (.error (.timedOut ⟨5⟩))] ∧
    Deadline 0 ⟨5⟩ waitingAtDoor x tooLate :=
  ⟨_, _, rfl, rfl, rfl, rfl, deadline_run rfl rfl (.inl rfl) ⟨5⟩ tooLate⟩

/-- A mono on a borrowed pool is polled and comes to a door, and then its scope is closed. -/
def polledBefore : List (Move Nat) :=
  [.act (.addPool { threadName := "worker", workers := 1 }), .act (.borrow "scope" 0),
    .act (.reserve 0 none "a" (.gate "door" (.finish (.value 7)))), .act (.reshape 0 .mono),
    .act (.use 0 .poll), .act (.testClosed 0), .act (.spawn 0), .act (.letGo 0),
    .act (.poll 0 (.named "w")), .act (.resume 0), .act (.step 0),
    .act (.beginShutdown 0 ⟨⟨0⟩, false⟩), .act (.finishShutdown 0)]

/-- Although the scope is closed when the caller begins to block, he is not told so: the launch has
found it open, and is not to look again. -/
theorem not_scopeClosed_polledBefore : ∃ x, (run {} polledBefore).system.reservations = [x] ∧
    System.isOffered x = true ∧ x.consumer.handle = .mono .running ∧
    (run {} polledBefore).system.isClosed x.scope = true ∧
    received 0 (run {} polledBefore) [call 0 ⟨0⟩, .act (.expire 0), .giveUp 0] =
      [.outcome (.error (.timedOut ⟨0⟩))] :=
  ⟨_, rfl, rfl, rfl, rfl, rfl⟩

end Timed

end Deferral
