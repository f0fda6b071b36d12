import Deferral.Probe.Trial
import Deferral.Proofs.System.Waiting

/-!
# What the probe extracts

The probe consumes a reservation in one of five ways and makes a value or none of what is delivered,
or a failure. If the caller that blocks is answered at all, every way comes to its end, and what is
extracted is that answer, with a value taken for some value; only a maybe takes cancellation for no
value, and a mono may time out instead.

Main statements:
* `exists_awaits_actions`: up to the wait, every way leads to a caller that is owed the outcome, in
  systems that are alike.
* `extraction_run`: what is extracted agrees with what a caller is answered with that blocks.
-/

namespace Deferral.Probe

open Deferral.System

variable {o : Options} {r : ReservationId} {w : System String}

/-- What the probe extracts from a reservation, if the wait comes to its end. -/
def extract (o : Options) (r : ReservationId) (w : System String) (shape : Shape) :
    Option (Except Failure (Option String)) :=
  (shape.wait r (w.run (shape.actions o r))).2.map extracted

/-- The outcome of an attempt is what is extracted from the reservation that it makes. -/
theorem outcome_attempt (o : Options) (s : ScopeId) (w : System String) (shape : Shape) :
    (shape.attempt o s w).2.map Trial.outcome =
      extract o w.reservations.length
        (w.act (.reserve s (some echoName) shape.name (echo o))) shape := by
  simp only [Shape.attempt, extract, Option.map_map]
  rfl

namespace Shape

/-- What is done with a reservation before it is launched. -/
def before (r : ReservationId) : Shape → List (Action String)
  | .block | .spawn => []
  | .mono => [.reshape r .mono]
  | .maybe => [.reshape r .maybe]
  | .stream => [.reshape r .stream]

/-- The operation that launches it. -/
def use (o : Options) : Shape → Use
  | .block => .block none
  | .spawn => .spawn
  | .mono => .block (some o.timeout)
  | .maybe => .get
  | .stream => .poll

/-- What is done after the launch. -/
def after (r : ReservationId) : Shape → List (Action String)
  | .spawn => [.use r (.join none)]
  | _ => []

/-- The handle on which the probe waits. -/
def handle (o : Options) : Shape → Handle
  | .block | .spawn => .waiting .outcome
  | .mono => .waiting (.blocking o.timeout)
  | .maybe => .waiting .value
  | .stream => .stream .running

/-- The handle after the launch. -/
def launched (o : Options) : Shape → Handle
  | .spawn => .future
  | shape => shape.handle o

/-- A reservation is consumed by launching it, with what comes before and after. -/
theorem actions_eq (o : Options) (r : ReservationId) (shape : Shape) :
    shape.actions o r =
      shape.before r ++ (.use r (shape.use o) :: launchActions r) ++ shape.after r := by
  cases shape <;> rfl

end Shape

/-- A reservation as the probe takes it: its caller has done nothing with it. -/
structure Reserved (r : ReservationId) (x : Reservation String) : Prop where
  /-- A caller has made it. -/
  parent_eq : x.parent = none
  /-- Its computation was not launched. -/
  phase_eq : x.phase = .captured
  /-- The caller has not turned it into a handle. -/
  handle_eq : x.consumer.handle = .reservation

variable {actions : List (Action String)} {x : Reservation String}

/-- Turning a reservation into a handle that starts on demand shows in the consumer only. -/
theorem reshape_reserved (hx : w.reservations[r]? = some x) (hreserved : Reserved r x)
    (shape : Deferral.Shape) :
    Alike r w (w.act (.reshape r shape)) ∧ (w.act (.reshape r shape)).reservations[r]? =
      some { x with consumer := { x.consumer with handle := shape.idle } } := by
  have hoffered : isOffered x = true := by simp [isOffered, hreserved.parent_eq, hreserved.phase_eq]
  have hreshape : x.consumer.reshape shape = { x.consumer with handle := shape.idle } := by
    rw [Consumer.reshape, hreserved.handle_eq]
  have hoperate : x.operate (.reshape r shape) =
      { x with consumer := { x.consumer with handle := shape.idle } } := by
    rw [Reservation.operate, hreshape]
  refine ⟨⟨x.consumer.reshape shape, ?_⟩, ?_⟩
  · rw [act_eq_update rfl (by simp) (by simp) hx hoffered]
    exact update_congr hx rfl
  · rw [getElem?_act_of_offered rfl (by simp) hx hoffered, hoperate]

/-- What is done before the launch leads to a handle whose operation launches the computation. -/
theorem exists_starts_use (hx : (run {} actions).reservations[r]? = some x)
    (hreserved : Reserved r x) (o : Options) (shape : Shape) :
    Alike r (run {} actions) (run {} (actions ++ shape.before r)) ∧
      ∃ y, (run {} (actions ++ shape.before r)).reservations[r]? = some y ∧
        y.phase = .captured ∧ (Action.use r (shape.use o) : Action String).starts r y = true ∧
        (y.consumer.begin (shape.use o)).consumer.handle = shape.launched o := by
  have hstarts {y : Reservation String} {u : Use} (hparent : y.parent = none)
      (hphase : y.phase = .captured) (hlaunch : (y.consumer.begin u).launch = true) :
      (Action.use r u : Action String).starts r y = true :=
    Action.starts_iff.mpr ⟨by simp [isOffered, hparent, hphase], hlaunch⟩
  obtain ⟨hparent, hphase, hhandle⟩ := hreserved
  rw [run_append]
  -- Blocking and spawning begin from the reservation itself, the other ways from a reshaped handle.
  cases shape with
  | block | spawn =>
    refine ⟨.refl r _, x, hx, hphase, hstarts hparent hphase ?_, ?_⟩
    all_goals simp [Shape.use, Consumer.begin, hhandle, Shape.launched, Shape.handle,
      Consumer.blockingWait]
  | mono =>
    obtain ⟨halike, hy⟩ := reshape_reserved hx ⟨hparent, hphase, hhandle⟩ .mono
    exact ⟨halike, _, hy, hphase, hstarts hparent hphase rfl, rfl⟩
  | maybe =>
    obtain ⟨halike, hy⟩ := reshape_reserved hx ⟨hparent, hphase, hhandle⟩ .maybe
    exact ⟨halike, _, hy, hphase, hstarts hparent hphase rfl, rfl⟩
  | stream =>
    obtain ⟨halike, hy⟩ := reshape_reserved hx ⟨hparent, hphase, hhandle⟩ .stream
    exact ⟨halike, _, hy, hphase, hstarts hparent hphase rfl, rfl⟩

/-- Up to the launch, every way of consuming the reservation leads to a caller that is owed the
outcome, in a system that is the same as if he had blocked but for the consumer. -/
theorem exists_awaits_launch (hx : (run {} actions).reservations[r]? = some x)
    (hreserved : Reserved r x) (o : Options) (shape : Shape) :
    Alike r ((run {} actions).run (Shape.block.actions o r))
        ((run {} actions).run (shape.before r ++ .use r (shape.use o) :: launchActions r)) ∧
      ∃ o?, Awaits r (shape.launched o) o?
        ((run {} actions).run (shape.before r ++ .use r (shape.use o) :: launchActions r)) := by
  obtain ⟨hbefore, y, hy, -, hstarts, hhandle⟩ := exists_starts_use hx hreserved o shape
  obtain ⟨-, y₀, hy₀, hphase₀, hstarts₀, -⟩ := exists_starts_use hx hreserved o .block
  rw [show actions ++ Shape.block.before r = actions from List.append_nil _] at hy₀
  obtain ⟨o?, hawaits⟩ := awaits_of_starts hy hstarts hhandle (by cases shape <;> rfl)
  -- Launched in this way or by blocking, the system is the same but for the consumer.
  have hlaunch := hbefore.launch hy₀ hy hstarts₀ hstarts hphase₀
  have howned : Owned r ((run {} actions).act (.use r (Shape.block.use o))) :=
    Owned.run ⟨x, hx, hreserved.parent_eq⟩ [.use r (Shape.block.use o)]
  rw [← run_concat, ← run_concat] at hlaunch
  rw [← run_concat] at howned
  have hrest := hlaunch.run howned handle?_ne_of_mem_launchActions
  rw [run_concat, run_concat] at hrest
  rw [run_append] at hawaits hrest
  rw [run_append]
  exact ⟨hrest, o?, hawaits⟩

/-- Up to the wait, every way of consuming the reservation leads to a caller that is owed the
outcome, in a system that is the same as if he had blocked but for the consumer. -/
theorem exists_awaits_actions (hx : (run {} actions).reservations[r]? = some x)
    (hreserved : Reserved r x) (o : Options) (shape : Shape) :
    Twin r ((run {} actions).run (Shape.block.actions o r))
        ((run {} actions).run (shape.actions o r)) ∧
      ∃ o?, Awaits r (shape.handle o) o? ((run {} actions).run (shape.actions o r)) := by
  obtain ⟨-, o₀?, hblock⟩ := exists_awaits_launch hx hreserved o .block
  obtain ⟨halike, o?, hawaits⟩ := exists_awaits_launch hx hreserved o shape
  have htwin (hrest : Alike r ((run {} actions).run (Shape.block.actions o r))
      ((run {} actions).run (shape.actions o r))) :
      Twin r ((run {} actions).run (Shape.block.actions o r))
        ((run {} actions).run (shape.actions o r)) :=
    ⟨⟨_, (run_append ..).symm⟩, ⟨_, (run_append ..).symm⟩, hrest, hblock.owned⟩
  cases shape with
  | spawn =>
    -- Only a future has something done to it between the launch and the wait: it is joined.
    obtain ⟨hjoin, hjoined⟩ := hawaits.join
    rw [Shape.actions_eq, run_append] at htwin ⊢
    exact ⟨htwin (halike.trans hjoin), o?, hjoined⟩
  | block | mono | maybe | stream => exact ⟨htwin halike, o?, hawaits⟩

/-! ## The wait -/

section

variable {w' : System String} {h h' : Handle} {o? o?' : Option (Outcome String)}

/-- A caller that waits goes on waiting while the scheduler acts. -/
theorem exists_awaits_inStep (htwin : Twin r w w) {v v' : System String} (hstep : InStep w w v v')
    (hw : Awaits r h o? w) : ∃ e?, Awaits r h e? v ∧ ∀ e, o? = some e → e? = some e := by
  obtain ⟨schedule, hschedule, rfl, -⟩ := hstep
  obtain ⟨⟨actions, rfl⟩, -⟩ := htwin
  exact hw.run fun a ha => by
    rw [hschedule a ha]
    nofun

/-- Callers that wait in systems that are the same but for the consumer are owed the same outcome
once all has come to rest. -/
theorem exists_awaits_quiesce (htwin : Twin r w w') (hw : Awaits r h o? w)
    (hw' : Awaits r h' o?' w') : ∃ e?, Awaits r h e? ((w.quiesce none).quiesce none) ∧
      Awaits r h' e? ((w'.quiesce none).quiesce none) ∧ ∀ e, o?' = some e → e? = some e := by
  have hstep := htwin.quiesce_quiesce none
  obtain ⟨e?, he, -⟩ := exists_awaits_inStep htwin.left hstep.left hw
  obtain ⟨e?', he', hkept⟩ := exists_awaits_inStep htwin.right hstep.right hw'
  obtain rfl := he.eq_of_alike he' (htwin.inStep hstep).alike
  exact ⟨_, he, he', hkept⟩

/-- What a wait is answered with, if it is. -/
def answer? : Waited String → Option (Delivery String)
  | .delivered d => some d
  | _ => none

/-- Every way but the stream is to block. -/
theorem wait_eq_answer? (shape : Shape) (hshape : shape ≠ .stream) (r : ReservationId)
    (w : System String) : (shape.wait r w).2 = answer? (w.waitOut r id).2 := by
  cases shape with
  | stream => exact absurd rfl hshape
  | block | spawn | mono | maybe =>
    simp only [Shape.wait]
    rcases w.waitOut r id with ⟨w', d | _ | _⟩ <;> rfl

/-- A wait without a bound has no deadline. -/
theorem no_deadline_of_awaits {purpose : Waiting} (hw : Awaits r (.waiting purpose) o? w)
    (hlimit : purpose.limit? = none) :
    ((w.waitLimit? r).bind fun d => d.deadline? w.clock) = none := by
  obtain ⟨x, hx, hawaited⟩ := hw
  have hnone : w.waitLimit? r = none := by
    rw [waitLimit?, hx, Option.bind_some, hawaited.handle_eq]
    exact hlimit
  rw [hnone, Option.bind_none]

/-- A wait without a deadline ends with the outcome, if it is published when all has
come to rest. -/
theorem answer?_of_no_deadline {purpose : Waiting} {e? : Option (Outcome String)}
    (hdeadline : ((w.waitLimit? r).bind fun d => d.deadline? w.clock) = none)
    (he : Awaits r (.waiting purpose) e? ((w.quiesce none).quiesce none)) :
    answer? (w.waitOut r id).2 = e?.map (Consumer.Waiting.deliver purpose) := by
  unfold waitOut
  simp only [hdeadline, id, he.fetchAnswer]
  cases e? <;> rfl

/-- A bounded wait that gives up ends with a time-out. If it does not, it ends with the outcome that
was published before the deadline. -/
theorem answer?_of_deadline {limit : Duration} {t : Nat} {e? : Option (Outcome String)}
    (hdeadline : ((w.waitLimit? r).bind fun d => d.deadline? w.clock) = some t)
    (he : Awaits r (.waiting (.blocking limit)) e? ((w.quiesce (some t)).quiesce (some t))) :
    answer? (w.waitOut r id).2 = some (.outcome (e?.getD (.error (.timedOut limit)))) := by
  unfold waitOut
  simp only [hdeadline, id, he.fetchAnswer]
  cases e? with
  | some e => rfl
  | none =>
    -- Time passes up to the deadline, and nothing else happens.
    have hpass (d : Nat) : Awaits r (.waiting (.blocking limit)) none
        (((w.quiesce (some t)).quiesce (some t)).act (.pass d)) := he
    simp only [Option.map_none, (hpass _).expireAnswer_of_none]
    rfl

end

/-! ## Agreement -/

/-- What is extracted from the reservation `r` agrees with what a caller is answered with that
blocks. -/
structure Extraction (o : Options) (r : ReservationId) (w : System String) : Prop where
  /-- A caller that blocks is answered with an outcome, if with anything. -/
  exists_outcome : ∀ d, (Shape.block.wait r (w.run (Shape.block.actions o r))).2 = some d →
    ∃ e, d = .outcome e
  /-- It is extracted by all ways that have no rule of their own, a value as some value. -/
  extract_eq : ∀ e shape, (Shape.block.wait r (w.run (Shape.block.actions o r))).2 = some (.outcome e) →
    shape = .block ∨ shape = .spawn ∨ shape = .stream → extract o r w shape = some (e.map some)
  /-- A maybe takes cancellation for no value. -/
  extract_maybe : ∀ e, (Shape.block.wait r (w.run (Shape.block.actions o r))).2 = some (.outcome e) →
    extract o r w .maybe = some (optional e)
  /-- A mono may time out. -/
  extract_mono : ∀ e, (Shape.block.wait r (w.run (Shape.block.actions o r))).2 = some (.outcome e) →
    extract o r w .mono = some (e.map some) ∨ extract o r w .mono = some (.error (.timedOut o.timeout))

section

variable {h : Handle} {o₀? o? : Option (Outcome String)} {e : Outcome String} {w' : System String}

/-- A caller that polls until it is answered gets the item of the stream. -/
theorem pollOut_of_awaits (htwin : Twin r w w') (hw : Awaits r h o₀? w)
    (he : Awaits r h (some e) ((w.quiesce none).quiesce none))
    (hw' : Awaits r (.stream .running) o? w') : (w'.pollOut r id).2 = some (.item (some e)) := by
  have hanswer := hw'.pollAnswer rfl .thread
  unfold pollOut
  rw [hanswer]
  cases o? with
  | some e' =>
    obtain ⟨e?, he₀, -, hkept⟩ := exists_awaits_quiesce htwin hw hw'
    obtain rfl := he.eq_of_alike he₀ (.refl r _)
    obtain rfl := Option.some.inj (hkept e' rfl)
    rfl
  | none =>
    -- The first poll leaves a waker behind, which makes no difference to the outcome.
    obtain ⟨hpoll, hw''⟩ := hw'.poll rfl .thread
    obtain ⟨actions', rfl⟩ := htwin.exists_run'
    have htwin' : Twin r w ((run {} actions').act (.poll r .thread)) :=
      ⟨htwin.exists_run, ⟨actions' ++ [.poll r .thread], by rw [run_concat]⟩,
        htwin.alike.trans hpoll, htwin.owned⟩
    obtain ⟨e?, he₀, he', -⟩ := exists_awaits_quiesce htwin' hw hw''
    obtain rfl := he.eq_of_alike he₀ (.refl r _)
    exact he'.pollAnswer rfl .thread

/-- A bounded wait ends with the outcome that a wait without bound ends with, or it times out. -/
theorem answer?_waitOut_of_awaits {limit : Duration} (htwin : Twin r w w)
    (hw : Awaits r (.waiting (.blocking limit)) o? w)
    (he : Awaits r (.waiting (.blocking limit)) (some e) ((w.quiesce none).quiesce none)) :
    answer? (w.waitOut r id).2 = some (.outcome e) ∨
      answer? (w.waitOut r id).2 = some (.outcome (.error (.timedOut limit))) := by
  rcases hdeadline : (w.waitLimit? r).bind fun d => d.deadline? w.clock with _ | t
  · rw [answer?_of_no_deadline hdeadline he]
    exact .inl rfl
  · have hstep := htwin.quiesce_quiesce (some t)
    obtain ⟨v?, hv, -⟩ := exists_awaits_inStep htwin hstep hw
    rw [answer?_of_deadline hdeadline hv]
    cases v? with
    | none => exact .inr rfl
    | some e' =>
      -- What was published before the deadline is what is published in the end.
      obtain ⟨e?, he', hkept⟩ :=
        exists_awaits_inStep (htwin.inStep hstep) (exists_further_quiesce htwin (some t)) hv
      obtain rfl := he.eq_of_alike he' (.refl r _)
      obtain rfl := Option.some.inj (hkept e' rfl)
      exact .inl rfl

end

section

variable (hx : (run {} actions).reservations[r]? = some x) (hreserved : Reserved r x) (o : Options)

include hx hreserved

/-- A caller that blocks is answered with the outcome that is published once all has
come to rest. -/
theorem exists_wait_block :
    ∃ e?, Awaits r (.waiting .outcome) e?
        ((((run {} actions).run (Shape.block.actions o r)).quiesce none).quiesce none) ∧
      (Shape.block.wait r ((run {} actions).run (Shape.block.actions o r))).2 =
        e?.map .outcome := by
  obtain ⟨htwin, o?, hw⟩ := exists_awaits_actions hx hreserved o .block
  obtain ⟨e?, he, -⟩ := exists_awaits_quiesce htwin hw hw
  refine ⟨e?, he, ?_⟩
  rw [wait_eq_answer? .block (by nofun), answer?_of_no_deadline (no_deadline_of_awaits hw rfl) he]
  rfl

variable {e : Outcome String}
  (hblock : (Shape.block.wait r ((run {} actions).run (Shape.block.actions o r))).2 =
    some (.outcome e))

include hblock

/-- What a caller that blocks is answered with is published in whatever way the reservation is
consumed. -/
theorem exists_awaits_of_block (shape : Shape) :
    Awaits r (.waiting .outcome) (some e)
        ((((run {} actions).run (Shape.block.actions o r)).quiesce none).quiesce none) ∧
      ∃ o?, Awaits r (shape.handle o) o? ((run {} actions).run (shape.actions o r)) ∧
        Awaits r (shape.handle o) (some e)
          ((((run {} actions).run (shape.actions o r)).quiesce none).quiesce none) := by
  obtain ⟨e₀?, he₀, hwait⟩ := exists_wait_block hx hreserved o
  obtain ⟨e', rfl, he'⟩ := Option.map_eq_some_iff.mp (hwait.symm.trans hblock)
  obtain rfl := Delivery.outcome.inj he'
  obtain ⟨-, o₀?, hw₀⟩ := exists_awaits_actions hx hreserved o .block
  obtain ⟨htwin, o?, hw⟩ := exists_awaits_actions hx hreserved o shape
  obtain ⟨e?, he₀', he, -⟩ := exists_awaits_quiesce htwin hw₀ hw
  obtain rfl := he₀.eq_of_alike he₀' (.refl r _)
  exact ⟨he₀, o?, hw, he⟩

/-- To block without a bound, in whatever way, ends with the same outcome in the form that
belongs to the handle. -/
theorem extract_of_unbounded (shape : Shape) (purpose : Waiting)
    (hhandle : shape.handle o = .waiting purpose) (hlimit : purpose.limit? = none) :
    extract o r (run {} actions) shape = some (extracted (Consumer.Waiting.deliver purpose e)) := by
  obtain ⟨-, o?, hw, he⟩ := exists_awaits_of_block hx hreserved o hblock shape
  rw [hhandle] at hw he
  have hshape : shape ≠ .stream := by
    rintro rfl
    cases hhandle
  rw [extract, wait_eq_answer? shape hshape,
    answer?_of_no_deadline (no_deadline_of_awaits hw hlimit) he]
  rfl

end

/-- What the probe extracts from a reservation, in whatever way, agrees with what a caller is
answered with that blocks. -/
theorem extraction_run (hx : (run {} actions).reservations[r]? = some x) (hreserved : Reserved r x)
    (o : Options) : Extraction o r (run {} actions) where
  exists_outcome d hd := by
    obtain ⟨e?, -, hwait⟩ := exists_wait_block hx hreserved o
    obtain ⟨e, -, rfl⟩ := Option.map_eq_some_iff.mp (hwait.symm.trans hd)
    exact ⟨e, rfl⟩
  extract_eq e shape hblock hshape := by
    rcases hshape with rfl | rfl | rfl
    · exact extract_of_unbounded hx hreserved o hblock .block .outcome rfl rfl
    · exact extract_of_unbounded hx hreserved o hblock .spawn .outcome rfl rfl
    · -- A stream is polled where the others are waited for.
      obtain ⟨he₀, o?, hw, -⟩ := exists_awaits_of_block hx hreserved o hblock .stream
      obtain ⟨-, o₀?, hw₀⟩ := exists_awaits_actions hx hreserved o .block
      have hpoll := pollOut_of_awaits (exists_awaits_actions hx hreserved o .stream).1 hw₀ he₀ hw
      rw [extract, Shape.wait]
      dsimp only
      rw [hpoll]
      rfl
  extract_maybe e hblock := extract_of_unbounded hx hreserved o hblock .maybe .value rfl rfl
  extract_mono e hblock := by
    obtain ⟨-, o?, hw, he⟩ := exists_awaits_of_block hx hreserved o hblock .mono
    have htwin := (exists_awaits_actions hx hreserved o .mono).1.right
    rw [extract, wait_eq_answer? .mono (by nofun)]
    rcases answer?_waitOut_of_awaits htwin hw he with hanswer | hanswer
    · rw [hanswer]
      exact .inl rfl
    · rw [hanswer]
      exact .inr rfl

end Deferral.Probe
