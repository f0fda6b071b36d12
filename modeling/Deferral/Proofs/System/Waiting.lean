import Deferral.Proofs.System.Agreement
import Deferral.Proofs.System.Schedule

/-!
# Callers that wait

A caller that has launched a computation, and holds a handle to be polled or blocked on, is owed the
outcome until he is handed it. `Awaits r h o? w` says that this is so for the reservation `r` with
the handle `h`, and that the outcome `o?` was published. What he is answered with depends on these
two only, and while others act only the outcome changes, which can be published.

Main statements:
* `awaits_of_starts`: after an operation that launches the computation, its caller waits.
* `Awaits.run`: he goes on waiting while others act.
* `Awaits.fetchAnswer`, `Awaits.expireAnswer`, `Awaits.pollAnswer`: what he is answered with.
-/

namespace Deferral.System

variable {V : Type} {w w' : System V} {a : Action V} {r : ReservationId} {x x' : Reservation V}

/-! ## Launches that are carried through -/

/-- The actions by which the launch of a reservation is carried through. -/
def launchActions (r : ReservationId) : List (Action V) :=
  [.testClosed r, .spawn r, .letGo r, .attach r]

/-- A launch is about no handle. -/
theorem handle?_ne_of_mem_launchActions : ∀ a ∈ launchActions (V := V) r, a.handle? ≠ some r := by
  simp [launchActions, Action.handle?]

/-- A launch that is carried through returns. -/
theorem exists_isSettled_launchActions (hx : w.reservations[r]? = some x)
    (hphase : x.phase ≠ .captured) :
    ∃ x', (w.run (launchActions r)).reservations[r]? = some x' ∧ x'.isSettled = true := by
  -- Whatever the launch has still to do is among its two steps.
  have hsteps : (launchSteps (V := V) r x.phase).Sublist [.testClosed r, .spawn r] := by
    cases x.phase <;> simp [launchSteps]
  obtain ⟨y, hy, hlaunched⟩ := leadsTo_isLaunched_of_launchSteps hphase hx hsteps
  have hletGo : (((w.run [.testClosed r, .spawn r]).letGo r).reservations)[r]? =
      some { y with holdsScope := false } := by
    rw [reservations_letGo, List.getElem?_modify_eq, hy]
    simp [hlaunched]
  refine ⟨{ y with holdsScope := false, consumer := y.consumer.attach }, ?_, ?_⟩
  · show (((w.run [.testClosed r, .spawn r]).letGo r).attach r).reservations[r]? = _
    rw [attach, hletGo]
    simp only [hlaunched, if_true]
    rw [updateConsumer, reservations_update, List.getElem?_modify_eq, hletGo]
    rfl
  · simp [Reservation.isSettled, hlaunched, Consumer.attaching_attach]

/-! ## Waiting -/

/-- The caller of the reservation `x`, of which the launch has returned, holds the handle `h` and is
owed the outcome, of which `o?` was published. -/
structure Awaited (h : Handle) (o? : Option (Outcome V)) (x : Reservation V) : Prop where
  /-- A caller has made it. -/
  parent_eq : x.parent = none
  /-- The launch has returned. -/
  isSettled : x.isSettled = true
  /-- This is what the caller holds. -/
  handle_eq : x.consumer.handle = h
  /-- This is what was published. -/
  outcomes_eq : x.outcomes.head? = o?
  /-- It is owed to the caller, and not to a callback of his. -/
  owes : ∃ callback?, callback? ≠ some .report ∧ x.consumer.Owes callback? o?

/-- The caller of the reservation `r` holds the handle `h` and is owed the outcome, of which
`o?` was published. -/
def Awaits (r : ReservationId) (h : Handle) (o? : Option (Outcome V)) (w : System V) : Prop :=
  ∃ x, w.reservations[r]? = some x ∧ Awaited h o? x

variable {h h' : Handle} {o? o?' : Option (Outcome V)}

/-- A caller that waits can operate on the handle. -/
theorem Awaited.isOffered (hx : Awaited h o? x) : System.isOffered x = true := by
  simp [System.isOffered, hx.parent_eq, hx.isSettled]

namespace Awaits

theorem owned (hw : Awaits r h o? w) : Owned r w := by
  obtain ⟨x, hx, hawaited⟩ := hw
  exact ⟨x, hx, hawaited.parent_eq⟩

/-- A poll is answered with the outcome, if it was published. -/
theorem pollAnswer (hw : Awaits r h o? w) (hpolled : h.isPolled = true) (k : Waker) :
    w.pollAnswer r k = o?.map h.deliver := by
  obtain ⟨x, hx, hawaited⟩ := hw
  obtain ⟨callback?, -, howes⟩ := hawaited.owes
  obtain rfl := hawaited.handle_eq
  rw [System.pollAnswer, hx, Option.bind_some, if_pos hawaited.isOffered]
  exact (howes.poll (attaching_eq_none_of_isSettled hawaited.isSettled).2 hpolled k).1

/-- A blocking operation is answered with the outcome, if it was published. -/
theorem fetchAnswer {purpose : Waiting} (hw : Awaits r (.waiting purpose) o? w) :
    w.fetchAnswer r = o?.map (Consumer.Waiting.deliver purpose) := by
  obtain ⟨x, hx, hawaited⟩ := hw
  obtain ⟨callback?, -, howes⟩ := hawaited.owes
  have hfetch := howes.fetch hawaited.handle_eq
  rw [hawaited.handle_eq] at hfetch
  rw [System.fetchAnswer, hx, Option.bind_some, if_pos hawaited.isOffered]
  exact hfetch

/-- A bounded operation whose time is up gives up, if the outcome was not published. -/
theorem expireAnswer_of_none {limit : Duration}
    (hw : Awaits r (.waiting (.blocking limit)) none w) : w.expireAnswer r = .givenUp limit := by
  obtain ⟨x, hx, hawaited⟩ := hw
  obtain ⟨callback?, -, howes⟩ := hawaited.owes
  have hfetch := howes.fetch hawaited.handle_eq
  simp only [System.expireAnswer, hx, if_pos hawaited.isOffered, Consumer.expire]
  split
  next d hd =>
    rw [hd] at hfetch
    cases hfetch
  next => rw [hawaited.handle_eq]

/-- Only the outcome shows whether others have acted. -/
theorem run {actions schedule : List (Action V)} (hw : Awaits r h o? (System.run {} actions))
    (hschedule : ∀ a ∈ schedule, a.handle? ≠ some r) :
    ∃ o?', Awaits r h o?' ((System.run {} actions).run schedule) ∧
      ∀ o, o? = some o → o?' = some o := by
  obtain ⟨x, hx, hawaited⟩ := hw
  obtain ⟨callback?, hreport, howes⟩ := hawaited.owes
  obtain ⟨x', hx', hgrows⟩ := exists_grows_run hx schedule
  rw [← hawaited.outcomes_eq] at howes
  obtain ⟨hhandle, howes'⟩ :=
    owes_of_others hschedule hx hawaited.parent_eq howes hreport hx'
  refine ⟨x'.outcomes.head?, ⟨x', hx', hgrows.parent_eq.trans hawaited.parent_eq, ?_,
    hhandle.trans hawaited.handle_eq, rfl, callback?, hreport, howes'⟩, fun o ho => ?_⟩
  · exact isSettled_of_others hschedule hx hawaited.parent_eq hawaited.isSettled hx'
  · exact head?_eq_some_mono hgrows.outcomes_prefix (hawaited.outcomes_eq.trans ho)

/-- In systems that are alike, the same outcome was published. -/
theorem eq_of_alike (hw : Awaits r h o? w) (hw' : Awaits r h' o?' w') (halike : Alike r w w') :
    o?' = o? := by
  obtain ⟨x, hx, hawaited⟩ := hw
  obtain ⟨x', hx', hawaited'⟩ := hw'
  obtain ⟨c, hy, -⟩ := halike.exists_getElem? hx
  obtain rfl := Option.some.inj (hx'.symm.trans hy)
  exact hawaited'.outcomes_eq.symm.trans hawaited.outcomes_eq

/-- A change of the consumer that leaves the outcome owed makes a difference in the
consumer only. -/
theorem of_act (ha : a.handle? = some r) (hdrop : a ≠ .drop r) (hdirect : a ≠ .runDirectly r)
    (hx : w.reservations[r]? = some x) (hawaited : Awaited h o? x) {c : Consumer V}
    (hoperate : x.operate a = { x with consumer := c }) (hattaching : c.attaching = none)
    (hhandle : c.handle = h') {callback? : Option Callback} (hreport : callback? ≠ some .report)
    (howes : c.Owes callback? o?) : Alike r w (w.act a) ∧ Awaits r h' o? (w.act a) := by
  rw [act_eq_update ha hdrop hdirect hx hawaited.isOffered,
    update_congr (g := fun x => { x with consumer := c }) hx hoperate]
  refine ⟨⟨c, update_congr hx rfl⟩, { x with consumer := c }, ?_, hawaited.parent_eq, ?_, hhandle,
    hawaited.outcomes_eq, callback?, hreport, howes⟩
  · rw [reservations_update, List.getElem?_modify_eq, hx]
    rfl
  · have hsettled := hawaited.isSettled
    simp only [Reservation.isSettled, Bool.and_eq_true] at hsettled
    simp [Reservation.isSettled, hsettled.1, hattaching]

/-- A poll before the outcome is published leaves the caller waiting. -/
theorem poll (hw : Awaits r h none w) (hpolled : h.isPolled = true) (k : Waker) :
    Alike r w (w.act (.poll r k)) ∧ Awaits r h none (w.act (.poll r k)) := by
  obtain ⟨x, hx, hawaited⟩ := hw
  obtain ⟨callback?, hreport, howes⟩ := hawaited.owes
  obtain ⟨-, hattaching⟩ := attaching_eq_none_of_isSettled hawaited.isSettled
  obtain ⟨hanswer, hpending⟩ :=
    howes.poll hattaching (by rw [hawaited.handle_eq]; exact hpolled) k
  refine of_act rfl (by nofun) (by nofun) hx hawaited rfl
    ((Consumer.attaching_poll k x.consumer).trans hattaching)
    ((Consumer.handle_of_poll_eq_none hanswer).trans hawaited.handle_eq) hreport (hpending rfl)

/-- A caller that joins a future waits for the same outcome. -/
theorem join (hw : Awaits r .future o? w) :
    Alike r w (w.act (.use r (.join none))) ∧
      Awaits r (.waiting .outcome) o? (w.act (.use r (.join none))) := by
  obtain ⟨x, hx, hawaited⟩ := hw
  obtain ⟨callback?, -, howes⟩ := hawaited.owes
  obtain rfl := Handle.eq_none_of_looks (by rw [hawaited.handle_eq]; rfl) howes.serves
  obtain ⟨hattaching, hcallback, hslot⟩ := howes.slot_eq
  have hbegin : x.consumer.begin (.join none) =
      { consumer := { x.consumer with handle := .waiting .outcome } } := by
    simp only [Consumer.begin, hawaited.handle_eq]
  have howes' : Consumer.Owes none o? { x.consumer with handle := .waiting .outcome } :=
    Consumer.owes_of_slot rfl howes.calls_eq hattaching hcallback hslot
  refine of_act (c := { x.consumer with handle := .waiting .outcome }) rfl (by simp) (by simp) hx
    hawaited ?_ hattaching rfl (by simp) howes'
  simp only [Reservation.operate, hbegin, Bool.false_eq_true, false_and, if_false]

end Awaits

/-- After an operation that launches the computation, and the launch, the caller waits. -/
theorem awaits_of_starts {actions : List (Action V)} {u : Use}
    (hx : (run {} actions).reservations[r]? = some x)
    (hstarts : (Action.use r u : Action V).starts r x = true)
    (hhandle : (x.consumer.begin u).consumer.handle = h)
    (hserves : h.serves (some .report) = false) :
    ∃ o?, Awaits r h o? (((run {} actions).act (.use r u)).run (launchActions r)) := by
  obtain ⟨callback?, x₁, hx₁, hparent, hlaunches, hconsumer, howes, -⟩ := owes_launch hx hstarts
  have hhandle₁ : x₁.consumer.handle = h := by rw [hconsumer, hhandle]
  -- No callback is owed the outcome, since the handle is not one that has given one.
  have hreport : callback? ≠ some .report := by
    rintro rfl
    have hserves' := howes.serves
    rw [hhandle₁, hserves] at hserves'
    cases hserves'
  have hphase : x₁.phase ≠ .captured := fun hphase => hlaunches ((sound_run hx₁).captured hphase)
  obtain ⟨x', hx', hsettled⟩ := exists_isSettled_launchActions hx₁ hphase
  obtain ⟨hhandle', howes'⟩ :=
    owes_of_others handle?_ne_of_mem_launchActions hx₁ hparent howes hreport hx'
  have hgrows := grows_of_run hx₁ hx'
  rw [← run_concat]
  exact ⟨_, x', hx', hgrows.parent_eq.trans hparent, hsettled, hhandle'.trans hhandle₁,
    rfl, callback?, hreport, howes'⟩

end Deferral.System
