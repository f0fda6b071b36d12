import Deferral.Proofs.Owing
import Deferral.Proofs.System.Abort
import Deferral.Proofs.System.Laziness

/-!
# What a caller is handed

A caller is handed something by being answered, or by having its callback invoked. `received` lists
all that the caller of a reservation is handed in a run, each with the handle that it had before. As
long as the list is empty the consumer owes the outcome, and the list begins with the outcome that
was published, in the form that belongs to the handle, if no abort was requested before.

Main statements:
* `Changes.owes`: what happens to a reservation by itself leaves the outcome owed, or the callback
  was invoked with it.
* `receipt_run`: once the computation was launched, the first that its caller is handed is the
  outcome.
-/

namespace Deferral

variable {V : Type}

/-! ## Answers -/

/-- What a blocking operation is answered with when its time is up. -/
def Consumer.Expiry.answer? : Consumer.Expiry V → Option (Delivery V)
  | .delivered d => some d
  | .givenUp limit => some (.outcome (.error (.timedOut limit)))
  | .handedBack | .unbounded => none

/-- What an operation is answered with by a reservation whose handle is offered. -/
def Reservation.answer? (a : Action V) (x : Reservation V) : Option (Delivery V) :=
  match a with
  | .use _ u => (x.consumer.begin u).answer
  | .poll _ waker => (x.consumer.poll waker).2
  | .fetch _ => x.consumer.fetch.2
  | .expire _ => x.consumer.expire.2.answer?
  | _ => none

namespace System

/-- What an operation of a caller is answered with. -/
def answer? (w : System V) : Action V → Option (Delivery V)
  | .use r u => w.useAnswer r u
  | .poll r waker => w.pollAnswer r waker
  | .fetch r => w.fetchAnswer r
  | .expire r => (w.expireAnswer r).answer?
  | _ => none

/-- What the callback of a caller was invoked with. -/
def calls (r : ReservationId) (w : System V) : List (Outcome V) :=
  (w.reservations[r]?).elim [] fun x => x.consumer.calls

/-- What the caller of the reservation `r` is handed during the action `a`. -/
def handed (r : ReservationId) (w : System V) (a : Action V) : List (Delivery V) :=
  (if a.handle? = some r then w.answer? a else none).toList ++
    (((w.act a).calls r).drop (w.calls r).length).map .outcome

/-- What the caller of the reservation `r` is handed during a run, with the handle that it had. -/
def received (r : ReservationId) (w : System V) : List (Action V) → List (Handle × Delivery V)
  | [] => []
  | a :: actions =>
    (w.handed r a).map (((w.reservations[r]?).elim .gone fun x => x.consumer.handle), ·) ++
      received r (w.act a) actions

variable {w : System V} {a : Action V} {r : ReservationId} {x x' : Reservation V}

theorem received_append (r : ReservationId) (w : System V) (actions further : List (Action V)) :
    received r w (actions ++ further) =
      received r w actions ++ received r (w.run actions) further := by
  induction actions generalizing w with
  | nil => rfl
  | cons a actions ih => simp [received, ih]

/-- What a caller is handed during one action. -/
theorem received_singleton (hx : w.reservations[r]? = some x) (a : Action V) :
    received r w [a] = (w.handed r a).map (x.consumer.handle, ·) := by
  simp [received, hx]

/-- An operation on a handle that is not offered is not answered. -/
theorem answer?_of_not_offered (ha : a.handle? = some r)
    (h : ∀ x, w.reservations[r]? = some x → isOffered x = false) : w.answer? a = none := by
  rcases hx : w.reservations[r]? with _ | x
  · cases a <;> simp only [Action.handle?, Option.some.injEq, reduceCtorEq] at ha <;> subst ha <;>
      simp [answer?, useAnswer, pollAnswer, fetchAnswer, expireAnswer, hx, Consumer.Expiry.answer?]
  · have hoffered := h x hx
    cases a <;> simp only [Action.handle?, Option.some.injEq, reduceCtorEq] at ha <;> subst ha <;>
      simp [answer?, useAnswer, pollAnswer, fetchAnswer, expireAnswer, hx, hoffered,
        Consumer.Expiry.answer?]

/-- An operation on a handle that is offered is answered by the reservation. -/
theorem answer?_of_offered (ha : a.handle? = some r) (hx : w.reservations[r]? = some x)
    (hoffered : isOffered x = true) : w.answer? a = x.answer? a := by
  cases a <;> simp only [Action.handle?, Option.some.injEq, reduceCtorEq] at ha <;> subst ha <;>
    simp [answer?, useAnswer, pollAnswer, fetchAnswer, expireAnswer, hx, hoffered,
      Reservation.answer?]

/-- What a caller is handed by operating on a handle that is offered. -/
theorem handed_of_offered (ha : a.handle? = some r) (hdirect : a ≠ .runDirectly r)
    (hx : w.reservations[r]? = some x) (hoffered : isOffered x = true) :
    w.handed r a = (x.answer? a).toList ++
      ((x.operate a).consumer.calls.drop x.consumer.calls.length).map .outcome := by
  simp [handed, calls, ha, answer?_of_offered ha hx hoffered, hx,
    getElem?_act_of_offered ha hdirect hx hoffered]

/-- What a caller is handed without operating on the handle, its callback was invoked with. -/
theorem handed_of_handle?_ne (ha : a.handle? ≠ some r) (hx : w.reservations[r]? = some x)
    (hx' : (w.act a).reservations[r]? = some x') :
    w.handed r a = (x'.consumer.calls.drop x.consumer.calls.length).map .outcome := by
  simp [handed, calls, ha, hx, hx']

/-- Nothing is handed to a caller by an operation on a handle that is not offered. -/
theorem handed_of_not_offered (ha : a.handle? = some r)
    (h : ∀ x, w.reservations[r]? = some x → isOffered x = false) : w.handed r a = [] := by
  simp [handed, answer?_of_not_offered ha h, act_of_not_offered ha h]

end System

/-! ## Handles that have not started the computation -/

namespace Consumer

variable {c : Consumer V}

/-- Only a future is given a callback in place of the handle. -/
theorem complete_of_ne_future (h : c.handle ≠ .future) : c.complete = c := by
  unfold complete
  split
  next hhandle => exact absurd hhandle h
  next => rfl

/-- To shape a handle changes nothing but the handle. -/
theorem reshape_eq (shape : Shape) (c : Consumer V) :
    c.reshape shape = { c with handle := (c.reshape shape).handle } := by
  unfold reshape
  split <;> rfl

/-- What is asked of a handle that has not started the computation is left undone, unless it
launches the computation. -/
theorem begin_of_isCold {u : Use} (hcold : c.handle.isCold = true)
    (hlaunch : (c.begin u).launch = false) :
    (c.begin u).consumer = c ∧ (c.begin u).answer = none := by
  cases c.begins u with
  | launched _ hbegin =>
    rw [hbegin] at hlaunch
    cases hlaunch
  | continued hc => cases hcold.symm.trans hc.isCold_eq_false.1
  | answered hhandle =>
    rcases hhandle with hhandle | hhandle <;> rw [hhandle] at hcold <;> cases hcold
  | told hhandle =>
    rw [hhandle] at hcold
    cases hcold
  | ignored _ _ hbegin =>
    rw [hbegin]
    exact ⟨rfl, rfl⟩

/-- A handle that has not started the computation is not polled. -/
theorem poll_of_isCold (hcold : c.handle.isCold = true) (w : Waker) : c.poll w = (c, none) := by
  unfold poll
  split <;> first
    | rfl
    | simp_all [Handle.isCold]

end Consumer

namespace Reservation

variable {x : Reservation V} {a : Action V} {r : ReservationId}

/-- Nothing was asked of the handle. -/
def Unasked (x : Reservation V) : Prop :=
  x.consumer = { handle := x.consumer.handle }

/-- What is asked of a handle that has not started the computation leaves the consumer as it is,
without an answer, unless it launches the computation. -/
theorem consumer_operate_of_isCold (hcold : x.consumer.handle.isCold = true)
    (ha : a.handle? = some r) (hlaunch : ∀ u, a = .use r u → (x.consumer.begin u).launch = false)
    (hreshape : ∀ shape, a ≠ .reshape r shape) (hdrop : a ≠ .drop r) :
    x.answer? a = none ∧ (x.operate a).consumer = x.consumer := by
  -- Such a handle neither waits for anything nor is a future.
  have hwaiting : ∀ purpose, x.consumer.handle ≠ .waiting purpose := fun purpose hhandle => by
    rw [hhandle] at hcold
    cases hcold
  have hfuture : x.consumer.handle ≠ .future := fun hhandle => by
    rw [hhandle] at hcold
    cases hcold
  cases a with
  | reshape q shape =>
    obtain rfl := Option.some.inj ha
    exact absurd rfl (hreshape shape)
  | use q u =>
    obtain rfl := Option.some.inj ha
    obtain ⟨hconsumer, hanswer⟩ := Consumer.begin_of_isCold hcold (hlaunch u rfl)
    refine ⟨hanswer, ?_⟩
    simp [Reservation.operate, hlaunch u rfl, hconsumer]
  | poll q waker =>
    have hpoll := Consumer.poll_of_isCold hcold waker
    exact ⟨by rw [Reservation.answer?, hpoll], by rw [Reservation.operate, hpoll]⟩
  | fetch q =>
    have hfetch := Consumer.fetch_of_not_waiting hwaiting
    exact ⟨by rw [Reservation.answer?, hfetch], by rw [Reservation.operate, hfetch]⟩
  | expire q =>
    have hexpire := Consumer.expire_of_not_waiting hwaiting
    exact ⟨by rw [Reservation.answer?, hexpire]; rfl, by rw [Reservation.operate, hexpire]⟩
  | complete q =>
    have hcomplete := Consumer.complete_of_ne_future hfuture
    exact ⟨rfl, by rw [Reservation.operate, hcomplete]⟩
  | drop q =>
    obtain rfl := Option.some.inj ha
    exact absurd rfl hdrop
  | _ => exact ⟨rfl, rfl⟩

/-- A handle that has not started the computation is dropped with the reservation. -/
theorem phase_dropHandle_ne_captured (hcold : x.consumer.handle.isCold = true) :
    x.dropHandle.phase ≠ .captured := by
  intro hphase
  have hgives : Consumer.givesUp x.consumer.handle ≠ true := fun hgives => by
    rw [isCold_of_givesUp hgives] at hcold
    cases hcold
  unfold dropHandle at hphase
  rw [if_neg hgives] at hphase
  split at hphase
  · cases hphase
  · exact absurd hphase ‹_›

/-- To drop the handle invokes no callback. -/
theorem calls_dropHandle (x : Reservation V) : x.dropHandle.consumer.calls = x.consumer.calls := by
  rw [consumer_dropHandle]
  unfold Consumer.drop
  split <;> rfl

/-- As long as an operation launches nothing, a handle of which nothing was asked is
not answered. -/
theorem Unasked.operate (h : x.Unasked) (hcold : x.consumer.handle.isCold = true)
    (hlaunch : ∀ u, a = .use r u → (x.consumer.begin u).launch = false) (ha : a.handle? = some r) :
    x.answer? a = none ∧ (x.operate a).consumer.calls = [] ∧
      ((x.operate a).phase = .captured → (x.operate a).Unasked) := by
  have hcalls : x.consumer.calls = [] := by rw [h]
  by_cases hreshape : ∃ shape, a = .reshape r shape
  · obtain ⟨shape, rfl⟩ := hreshape
    -- Only the handle itself is another one.
    have hunasked : (x.operate (.reshape r shape)).Unasked := by
      rw [Unasked, Reservation.operate, h]
      exact Consumer.reshape_eq shape _
    exact ⟨rfl, by rw [hunasked], fun _ => hunasked⟩
  · by_cases hdrop : a = .drop r
    · subst hdrop
      exact ⟨rfl, (calls_dropHandle x).trans hcalls,
        fun hphase => absurd hphase (phase_dropHandle_ne_captured hcold)⟩
    · obtain ⟨hanswer, hconsumer⟩ :=
        consumer_operate_of_isCold hcold ha hlaunch (not_exists.mp hreshape) hdrop
      exact ⟨hanswer, hconsumer ▸ hcalls, fun _ => by rw [Unasked, hconsumer]; exact h⟩

end Reservation

namespace System

variable {w : System V} {a : Action V} {r : ReservationId} {x x' : Reservation V}

/-- Nothing happens by itself to the consumer of a reservation of which nothing was asked. -/
theorem Changes.consumer_eq_of_unasked (h : w.Changes r a x x') (hby : ¬w.Handles r a)
    (ha : a.handle? ≠ some r) (hphase : x.phase = .captured) (hx : x.Unasked) :
    x'.consumer = x.consumer := by
  refine (Changes.preserve (P := fun y => y.phase = .captured ∧ y.consumer = x.consumer)
    (fun y y' hchange hy => ⟨(hchange.captured_iff hby ha).mpr hy.1, ?_⟩) h ⟨hphase, rfl⟩).2
  obtain ⟨hcaptured, hconsumer⟩ := hy
  -- The computation was not launched, so nothing is published for it.
  cases hchange with
  | handle _ hby' => exact absurd hby' hby
  | attach =>
    have hattach : y.consumer.attach = y.consumer := by
      rw [Consumer.attach, hconsumer, hx]
    exact hattach.trans hconsumer
  | launch | clear | clearDirectly | queue | letGo | abort | discard | start | advance | pause
  | engage => exact hconsumer
  | refuse _ _ hphase | lose hphase => cases hcaptured.symm.trans hphase
  | finish hphase | drop _ hphase =>
    rw [hcaptured] at hphase
    cases hphase

/-- Nothing is handed to the caller of a reservation that is not there yet. -/
theorem handed_of_absent (hx : w.reservations[r]? = none)
    (hcalls : ∀ x', (w.act a).reservations[r]? = some x' → x'.consumer.calls = []) :
    w.handed r a = [] := by
  by_cases ha : a.handle? = some r
  · exact handed_of_not_offered ha fun x hx' => by cases hx.symm.trans hx'
  · rcases hx' : (w.act a).reservations[r]? with _ | x'
    · simp [handed, calls, ha, hx, hx']
    · simp [handed, calls, ha, hx, hx', hcalls x' hx']

/-- What is not there after a run was never there. -/
theorem getElem?_eq_none_of_run {actions : List (Action V)}
    (hx : (w.run actions).reservations[r]? = none) : w.reservations[r]? = none := by
  by_contra hne
  obtain ⟨x, hx'⟩ := Option.ne_none_iff_exists'.mp hne
  obtain ⟨x', hx'', -⟩ := exists_grows_run hx' actions
  cases hx.symm.trans hx''

/-- Nothing is handed to the caller of a reservation until that is made. -/
theorem received_of_absent {actions : List (Action V)}
    (hx : (w.run actions).reservations[r]? = none) : received r w actions = [] := by
  induction actions generalizing w with
  | nil => rfl
  | cons a actions ih =>
    have hbefore : w.reservations[r]? = none := getElem?_eq_none_of_run hx
    rw [run_cons] at hx
    have hafter : (w.act a).reservations[r]? = none := getElem?_eq_none_of_run hx
    have hhanded : w.handed r a = [] :=
      handed_of_absent hbefore fun x' hx' => by cases hafter.symm.trans hx'
    rw [received, hhanded, ih hx, List.map_nil, List.append_nil]

/-- Nothing was asked yet of a reservation that a caller has just made. -/
theorem New.consumer_eq (h : w.New a x) (hparent : x.parent = none) : x.consumer = {} := by
  cases h with
  | reserve => rfl
  | await => cases hparent

/-- To run a computation directly takes it out of the reservation, so nothing was done
if it is still there. -/
theorem runDirectly_of_captured (hx : w.reservations[r]? = some x) (hoffered : isOffered x = true)
    (hphase : x.phase = .captured) (hx' : (w.act (.runDirectly r)).reservations[r]? = some x')
    (hphase' : x'.phase = .captured) : w.act (.runDirectly r) = w := by
  refine runDirectly_eq_self hx fun hhandle => ?_
  rw [System.act, getElem?_runDirectly hx hoffered hphase hhandle] at hx'
  obtain rfl := Option.some.inj hx'
  split at hphase' <;> cases hphase'

/-- As long as the computation is not started, nothing is asked of a handle for good, and the caller
is handed nothing. -/
theorem unasked_act {actions : List (Action V)} (hx : (run {} actions).reservations[r]? = some x)
    (hparent : x.parent = none) (hphase : x.phase = .captured) (hunasked : x.Unasked)
    (hx' : ((run {} actions).act a).reservations[r]? = some x') (hphase' : x'.phase = .captured) :
    x'.Unasked ∧ (run {} actions).handed r a = [] := by
  have hcalls : x.consumer.calls = [] := by rw [hunasked]
  have hoffered : isOffered x = true := by simp [isOffered, hphase, hparent]
  by_cases ha : a.handle? = some r
  · by_cases hdirect : a = .runDirectly r
    · subst hdirect
      have hself := runDirectly_of_captured hx hoffered hphase hx' hphase'
      rw [hself, hx] at hx'
      obtain rfl := Option.some.inj hx'
      refine ⟨hunasked, ?_⟩
      simp [handed, hself, answer?]
    · have hoperate := getElem?_act_of_offered ha hdirect hx hoffered
      obtain rfl := Option.some.inj (hx'.symm.trans hoperate)
      -- The computation is still captured afterwards, so no use has launched it.
      have hlaunch : ∀ u, a = .use r u → (x.consumer.begin u).launch = false := by
        rintro u rfl
        by_contra hlaunch
        rw [Reservation.operate, if_pos ⟨by simpa using hlaunch, hphase⟩] at hphase'
        cases hphase'
      have hcold := (aligned_run hx).captured_iff.mp hphase
      obtain ⟨hanswer, hcalls', hunasked'⟩ := hunasked.operate hcold hlaunch ha
      refine ⟨hunasked' hphase', ?_⟩
      rw [handed_of_offered ha hdirect hx hoffered, hanswer, hcalls', List.drop_nil]
      rfl
  · -- Nobody but the caller does anything with the handle.
    have hconsumer := Changes.consumer_eq_of_unasked (changes_of_act hx hx')
      (fun hby => ha (hby.caller_of_parent_eq_none hx hparent).1) ha hphase hunasked
    refine ⟨by rw [Reservation.Unasked, hconsumer]; exact hunasked, ?_⟩
    rw [handed_of_handle?_ne ha hx hx', hconsumer, hcalls]
    rfl

/-- Whatever a caller does with a handle without starting the computation, he is handed nothing. -/
theorem unasked_run {actions : List (Action V)} (hx : (run {} actions).reservations[r]? = some x)
    (hphase : x.phase = .captured) : x.Unasked ∧ received r {} actions = [] := by
  -- A nested reservation is launched at once, so this one is a caller's.
  have hparent : x.parent = none := by
    by_contra hne
    exact (started_run hx).ne_captured hne hphase
  induction hx using run_induction with
  | start hx => cases hx
  | @new actions a _ hx hnone hnew =>
    have hconsumer := hnew.consumer_eq hparent
    have hhanded : (run {} actions).handed r a = [] := handed_of_absent hnone fun x' hx' => by
      obtain rfl := Option.some.inj (hx.symm.trans hx')
      rw [hconsumer]
    refine ⟨by rw [Reservation.Unasked, hconsumer], ?_⟩
    simp [received_append, received_of_absent hnone, received, hhanded]
  | @act _ _ _ y hx hy hchanges ih =>
    have hparent' : y.parent = none := (Changes.grows hchanges).parent_eq.symm.trans hparent
    have hcaptured : y.phase = .captured := by
      by_contra hne
      exact (Changes.launchSteps_sublist hchanges hne).1 hphase
    obtain ⟨hunasked, hreceived⟩ := ih hcaptured hparent'
    obtain ⟨hunasked', hhanded⟩ := unasked_act hy hparent' hcaptured hunasked hx hphase
    refine ⟨hunasked', ?_⟩
    rw [received_append, hreceived, received_singleton hy, hhanded]
    rfl

end System

/-! ## Handles that have started the computation -/

namespace Consumer

variable {c : Consumer V}

theorem calls_prefix_invoke (callback : Callback) (o : Outcome V) (c : Consumer V) :
    c.calls <+: (invoke callback o c).calls := by
  cases callback with
  | report => exact List.prefix_append ..
  | forward => exact List.prefix_rfl

theorem calls_prefix_register (callback : Callback) (c : Consumer V) :
    c.calls <+: (register callback c).calls := by
  unfold register
  split
  next cell o _ => exact calls_prefix_invoke callback o { c with cell }
  next => exact List.prefix_rfl

/-- What a callback was invoked with is not forgotten when another one is registered. -/
theorem calls_prefix_attach (c : Consumer V) : c.calls <+: c.attach.calls := by
  unfold attach
  split
  next callback _ => exact calls_prefix_register callback { c with attaching := none }
  next => exact List.prefix_rfl

end Consumer

/-- What comes first in a list comes first in one that goes on from there. -/
theorem head?_eq_some_mono {α : Type} {l l' : List α} {a : α} (h : l <+: l')
    (ha : l.head? = some a) : l'.head? = some a :=
  List.singleton_prefix_iff_head?_eq_some.mp
    ((List.singleton_prefix_iff_head?_eq_some.mpr ha).trans h)

/-- The callback of the caller was invoked with the outcome that was published. -/
def Reservation.Told (x : Reservation V) : Prop :=
  ∃ o, x.outcomes.head? = some o ∧ x.consumer.calls.head? = some o

/-- The consumer owes the outcome, if it was published, or the callback of the caller
was invoked with it. -/
def Reservation.OwesOrTold (callback? : Option Callback) (x : Reservation V) : Prop :=
  x.consumer.Owes callback? x.outcomes.head? ∨ callback? = some .report ∧ x.Told

namespace System

variable {w : System V} {a : Action V} {r : ReservationId} {x x' : Reservation V}
  {callback? : Option Callback}

/-- What happens to a reservation by itself leaves the outcome owed, or the callback
was invoked with it. -/
theorem Change.owes (h : w.Change r a x x') (hby : ¬w.Handles r a) (hsound : x.Sound)
    (hx : x.OwesOrTold callback?) : x'.OwesOrTold callback? := by
  -- An outcome that is published is the first.
  have conclude (phase : Phase) (event : Event V) (o : Outcome V) (hover : x.phase.isOver = false) :
      (x.conclude phase event o).OwesOrTold callback? := by
    have houtcomes := hsound.running hover
    have hhead : (x.outcomes ++ [o]).head? = some o := by rw [houtcomes]; rfl
    rcases hx with howes | ⟨-, o', ho', -⟩
    · rw [houtcomes] at howes
      rcases howes.publish o with howes' | ⟨hreport, hcalls⟩
      · refine .inl ?_
        show (x.consumer.publish o).Owes callback? (x.outcomes ++ [o]).head?
        rw [hhead]
        exact howes'
      · refine .inr ⟨hreport, o, hhead, ?_⟩
        show (x.consumer.publish o).calls.head? = some o
        rw [hcalls]
        rfl
    · rw [houtcomes] at ho'
      cases ho'
  cases h with
  | handle _ hby' => exact absurd hby' hby
  | attach =>
    rcases hx with howes | ⟨hreport, o, ho, hcall⟩
    · rcases howes.attach with howes' | ⟨o, ho, hreport, hcalls⟩
      · exact .inl howes'
      · exact .inr ⟨hreport, o, ho, by rw [hcalls]; rfl⟩
    · exact .inr ⟨hreport, o, ho, head?_eq_some_mono (Consumer.calls_prefix_attach _) hcall⟩
  | launch | clear | clearDirectly | queue | letGo | abort | discard | start | advance | pause
  | engage => exact hx
  | refuse _ _ hphase => exact conclude _ _ _ (by rw [hphase]; rfl)
  | lose hphase =>
    exact conclude .dropped .dropped (.error .cancelled) (by rw [hphase]; rfl)
  | finish hphase => exact conclude _ _ _ (Phase.isOver_of_isActive hphase)
  | drop _ hphase => exact conclude _ _ _ (Phase.isOver_of_isSuspended hphase)

/-- What happens to a reservation by itself leaves the outcome owed, or the callback
was invoked with it. -/
theorem Changes.owes (h : w.Changes r a x x') (hby : ¬w.Handles r a) (hsound : x.Sound)
    (hx : x.consumer.Owes callback? x.outcomes.head?) : x'.OwesOrTold callback? :=
  (Changes.preserve (P := fun y => y.Sound ∧ y.OwesOrTold callback?)
    (fun _ _ hchange hy => ⟨hy.1.change hchange, hchange.owes hby hy.1 hy.2⟩) h
    ⟨hsound, .inl hx⟩).2

end System

/-! ## Operations of the caller -/

namespace Reservation

variable {x : Reservation V} {a : Action V} {r : ReservationId} {callback? : Option Callback}

/-- An operation of the caller publishes nothing. -/
theorem outcomes_operate (a : Action V) (x : Reservation V) :
    (x.operate a).outcomes = x.outcomes := by
  cases a with
  | use q u =>
    unfold Reservation.operate
    dsimp only
    split <;> rfl
  | drop q => exact System.outcomes_dropHandle x
  | _ => rfl

/-- Whether the action gives a callback in place of the handle. -/
def callsBack (x : Reservation V) : Action V → Bool
  | .complete _ => x.consumer.handle = .future
  | .use _ u => u = .subscribe && x.consumer.handle = .mono .running
  | _ => false

/-- What an operation of the caller leads to, if the outcome is owed. -/
inductive Operated (callback? : Option Callback) (a : Action V) (x : Reservation V) : Prop
  /-- The operation is not answered, and the outcome goes on being owed. -/
  | owed {callback' : Option Callback} (hanswer : x.answer? a = none)
      (howes : (x.operate a).consumer.Owes callback' x.outcomes.head?)
      (hreport : callback? = some .report ∨ x.callsBack a = true → callback' = some .report)
  /-- The outcome is the first that the caller is handed. -/
  | handed (o : Outcome V) (houtcome : x.outcomes.head? = some o)
      (hhead : ((x.answer? a).toList ++ (x.operate a).consumer.calls.map Delivery.outcome).head? =
        some (x.consumer.handle.deliver o))

/-- Most operations leave a callback that was given where it is. -/
theorem Operated.keep {c : Consumer V} (howes : c.Owes callback? x.outcomes.head?)
    (hback : x.callsBack a = false) (hanswer : x.answer? a = none)
    (hoperate : (x.operate a).consumer = c) : Operated callback? a x := by
  refine .owed hanswer (hoperate ▸ howes) fun hreport => hreport.elim id fun hback' => ?_
  cases hback.symm.trans hback'

/-- Whoever is answered with the outcome is handed it before his callback is invoked. -/
theorem Operated.answer {o : Outcome V} (houtcome : x.outcomes.head? = some o)
    (hanswer : x.answer? a = some (x.consumer.handle.deliver o)) : Operated callback? a x := by
  refine .handed o houtcome ?_
  rw [hanswer]
  rfl

/-- A poll is answered with the outcome that is owed, once it was published. -/
theorem operated_poll (h : x.consumer.Owes callback? x.outcomes.head?)
    (hattaching : x.consumer.attaching = none) (waker : Waker) :
    Operated callback? (.poll r waker) x := by
  by_cases hpolled : x.consumer.handle.isPolled = true
  · obtain ⟨hanswer, howes⟩ := h.poll hattaching hpolled waker
    cases ho : x.outcomes.head? with
    | none =>
      rw [ho] at hanswer
      exact .keep (ho ▸ howes ho) rfl hanswer rfl
    | some o =>
      rw [ho] at hanswer
      exact .answer ho hanswer
  · have hpoll := Consumer.poll_of_not_isPolled h.serves (Bool.eq_false_iff.mpr hpolled) waker
    refine .keep h rfl ?_ ?_
    · rw [Reservation.answer?, hpoll]
    · rw [Reservation.operate, hpoll]

/-- A caller that looks finds the outcome that is owed, once it was published. -/
theorem operated_fetch (h : x.consumer.Owes callback? x.outcomes.head?) :
    Operated callback? (.fetch r) x := by
  by_cases hwaiting : ∃ purpose, x.consumer.handle = .waiting purpose
  · obtain ⟨purpose, hhandle⟩ := hwaiting
    have hanswer := h.fetch hhandle
    cases ho : x.outcomes.head? with
    | none =>
      rw [ho] at hanswer
      exact .keep h rfl hanswer (Consumer.fetch_eq_self hanswer)
    | some o =>
      rw [ho] at hanswer
      exact .answer ho hanswer
  · have hfetch := Consumer.fetch_of_not_waiting fun purpose hhandle => hwaiting ⟨purpose, hhandle⟩
    refine .keep h rfl ?_ ?_
    · rw [Reservation.answer?, hfetch]
    · rw [Reservation.operate, hfetch]

/-- A caller whose time is up is handed the outcome that is owed, unless it gives up. -/
theorem operated_expire (h : x.consumer.Owes callback? x.outcomes.head?)
    (hspares : x.consumer.expire.2.isGivenUp = false) : Operated callback? (.expire r) x := by
  by_cases hwaiting : ∃ purpose, x.consumer.handle = .waiting purpose
  · obtain ⟨purpose, hhandle⟩ := hwaiting
    obtain ⟨hthere, hpending⟩ := h.expire hhandle
    cases ho : x.outcomes.head? with
    | none =>
      obtain ⟨howes, hnot⟩ := hpending ho
      refine .keep (ho ▸ howes) rfl ?_ rfl
      unfold Reservation.answer?
      cases hexpiry : x.consumer.expire.2 with
      | delivered d => exact absurd hexpiry (hnot d)
      | givenUp limit =>
        rw [hexpiry] at hspares
        cases hspares
      | handedBack | unbounded => rfl
    | some o =>
      refine .answer ho ?_
      rw [Reservation.answer?, hthere o ho]
      rfl
  · -- Without a wait there is nothing that could expire.
    have hexpire :=
      Consumer.expire_of_not_waiting fun purpose hhandle => hwaiting ⟨purpose, hhandle⟩
    refine .keep h rfl ?_ ?_
    · rw [Reservation.answer?, hexpire]
      rfl
    · rw [Reservation.operate, hexpire]

/-- A future that is given a callback invokes it with the outcome, at once if that was published. -/
theorem operated_complete (h : x.consumer.Owes callback? x.outcomes.head?) :
    Operated callback? (.complete r) x := by
  by_cases hhandle : x.consumer.handle = .future
  · obtain ⟨hpending, hthere⟩ := h.complete hhandle
    cases ho : x.outcomes.head? with
    | none => exact .owed rfl (ho ▸ hpending ho) fun _ => rfl
    | some o =>
      refine .handed o ho ?_
      have hcalls : (x.operate (.complete r)).consumer.calls = [o] := hthere o ho
      rw [hcalls, hhandle]
      rfl
  · refine .keep h ?_ rfl (Consumer.complete_of_ne_future hhandle)
    simp [callsBack, hhandle]

/-- What an operation of the caller leads to, if the outcome is owed: it is answered with the
outcome, or the callback is invoked with it, or the outcome goes on being owed. -/
theorem operated_of_owes (h : x.consumer.Owes callback? x.outcomes.head?) (ha : a.handle? = some r)
    (hattaching : x.consumer.attaching = none)
    (hspares : a = .expire r → x.consumer.expire.2.isGivenUp = false) : Operated callback? a x := by
  cases a with
  | reshape q shape => exact .keep h rfl rfl (h.reshape shape)
  | use q u =>
    obtain ⟨hanswer, hlaunch, callback', howes, hreport⟩ := h.begin u
    have hoperate : (x.operate (.use q u)).consumer = (x.consumer.begin u).consumer := by
      simp [Reservation.operate, hlaunch]
    refine .owed hanswer (hoperate ▸ howes) fun hback => hreport (hback.imp_right ?_)
    simp [callsBack]
  | poll q waker => exact operated_poll h hattaching waker
  | fetch q => exact operated_fetch h
  | expire q =>
    obtain rfl := Option.some.inj ha
    exact operated_expire h (hspares rfl)
  | complete q => exact operated_complete h
  | drop q => exact .keep h.drop rfl rfl (Reservation.consumer_dropHandle x)
  | _ => exact .keep h rfl rfl rfl

end Reservation

/-! ## Runs -/

/-- A callback of the caller gets the outcome itself. -/
theorem Handle.deliver_of_serves_report {h : Handle} (hserves : h.serves (some .report) = true)
    (o : Outcome V) : h.deliver o = .outcome o := by
  unfold serves at hserves
  split at hserves <;> first | rfl | simp_all

namespace System

variable {w : System V} {a : Action V} {r : ReservationId} {x x' : Reservation V}
  {callback? : Option Callback}

/-- During the run, the caller of the reservation `r` has given a callback in place
of the handle. -/
def GaveCallback (r : ReservationId) (w : System V) (actions : List (Action V)) : Prop :=
  ∃ before a after x, actions = before ++ a :: after ∧ a.handle? = some r ∧
    (w.run before).reservations[r]? = some x ∧ isOffered x = true ∧ x.callsBack a = true

/-- A callback was given before the last action, or by that. -/
theorem gaveCallback_concat {actions : List (Action V)}
    (h : GaveCallback r w (actions ++ [a])) (hx : (w.run actions).reservations[r]? = some x) :
    GaveCallback r w actions ∨ a.handle? = some r ∧ isOffered x = true ∧ x.callsBack a = true := by
  obtain ⟨before, b, after, y, hsplit, hb, hy, hoffered, hback⟩ := h
  rcases List.eq_nil_or_concat after with rfl | ⟨after', c, rfl⟩
  · obtain ⟨rfl, hab⟩ := List.append_inj' hsplit rfl
    obtain rfl := List.singleton_inj.mp hab
    obtain rfl := Option.some.inj (hx.symm.trans hy)
    exact .inr ⟨hb, hoffered, hback⟩
  · have hsplit' : actions ++ [a] = (before ++ b :: after') ++ [c] := by rw [hsplit]; simp
    exact .inl ⟨before, b, after', y, (List.append_inj' hsplit' rfl).1, hb, hy, hoffered, hback⟩

/-- What the caller of the reservation `x` was handed: nothing, and then the outcome is owed, or the
outcome first of all. A caller that has given a callback is not owed the outcome in another way. -/
inductive Receipt (given : Prop) (received : List (Handle × Delivery V)) (x : Reservation V) : Prop
  /-- The outcome is owed. -/
  | owed {callback? : Option Callback} (howes : x.consumer.Owes callback? x.outcomes.head?)
      (hreceived : received = []) (hgiven : given → callback? = some .report)
  /-- The outcome was handed to the caller. -/
  | handed (h : Handle) (o : Outcome V) (houtcome : x.outcomes.head? = some o)
      (hreceived : received.head? = some (h, h.deliver o))

/-- What holds for a caller that has given a callback holds for one of which less is known. -/
theorem Receipt.weaken {given given' : Prop} {received : List (Handle × Delivery V)}
    (h : Receipt given received x) (hgiven : given' → given) : Receipt given' received x := by
  cases h with
  | owed howes hreceived hgiven' => exact .owed howes hreceived fun h => hgiven' (hgiven h)
  | handed h o houtcome hreceived => exact .handed h o houtcome hreceived

/-- When the launch has returned, no callback waits for it any more. -/
theorem attaching_eq_none_of_isSettled (hsettled : x.isSettled = true) :
    x.phase.isLaunched = true ∧ x.consumer.attaching = none := by
  simp only [Reservation.isSettled, Bool.and_eq_true, Option.isNone_iff_eq_none] at hsettled
  exact ⟨hsettled.1.1, hsettled.2⟩

/-- A launch that has returned has begun. -/
theorem ne_captured_of_isSettled (hsettled : x.isSettled = true) : x.phase ≠ .captured := by
  intro hphase
  rw [Reservation.isSettled, hphase] at hsettled
  cases hsettled

/-- A caller has made the reservation of a handle that is offered. -/
theorem parent_eq_none_of_isOffered (hoffered : isOffered x = true) : x.parent = none := by
  simp only [isOffered, Bool.and_eq_true, Option.isNone_iff_eq_none] at hoffered
  exact hoffered.1

/-- When the launch has returned, the handle is offered to the caller. -/
theorem isOffered_of_isSettled (hparent : x.parent = none) (hsettled : x.isSettled = true) :
    isOffered x = true := by
  simp [isOffered, hparent, hsettled]

/-- A handle that is offered after the launch is that of a launch that has returned. -/
theorem isSettled_of_isOffered (hoffered : isOffered x = true) (hphase : x.phase ≠ .captured) :
    x.isSettled = true := by
  simp only [isOffered, Bool.and_eq_true, Bool.or_eq_true, decide_eq_true_eq, hphase, false_or]
    at hoffered
  exact hoffered.2

/-- A computation whose outcome is owed is not run directly, since its handle was
turned into another one. -/
theorem runDirectly_of_owes (hx : w.reservations[r]? = some x)
    (howes : x.consumer.Owes callback? x.outcomes.head?) : w.act (.runDirectly r) = w := by
  refine runDirectly_eq_self hx fun hhandle => ?_
  have hserves := howes.serves
  rw [hhandle] at hserves
  rcases callback? with _ | _ | _ <;> cases hserves

/-- A caller whose time is up does not give up, if no abort is requested. -/
theorem isGivenUp_expire_of_spared {actions : List (Action V)}
    (hx : (run {} actions).reservations[r]? = some x) (hlaunches : x.launches ≠ 0)
    (hlaunched : x.phase.isLaunched = true) (hoffered : isOffered x = true)
    (hx' : ((run {} actions).act (.expire r)).reservations[r]? = some x')
    (haborted : x'.aborted = false) : x.consumer.expire.2.isGivenUp = false := by
  by_contra hgives
  obtain ⟨⟨limit, hhandle⟩, hpending⟩ :=
    (Consumer.isGivenUp_expire_iff _).mp (eq_true_of_ne_false hgives)
  -- The cell is empty, so no outcome was published, and there is a task to abort.
  have hspawned : x.spawned = true := by
    refine (spawned_or_outcomes_ne_nil hx hlaunched hlaunches).resolve_right fun houtcomes => ?_
    have hdone := (sound_run hx).isDone_eq
    rw [Cell.isDone, hpending] at hdone
    simp [Slot.isDone, houtcomes] at hdone
  have hgivesUp := (aborted_act hx hx').mpr (.inr ⟨hspawned, .expire hoffered hhandle hpending⟩)
  cases haborted.symm.trans hgivesUp

/-- What an operation leads to for a caller that is owed the outcome. -/
theorem receipt_operate {actions : List (Action V)}
    (hx : (run {} actions).reservations[r]? = some x) (hlaunches : x.launches ≠ 0)
    (howes : x.consumer.Owes callback? x.outcomes.head?) (ha : a.handle? = some r)
    (hdirect : a ≠ .runDirectly r) (hoffered : isOffered x = true)
    (hx' : ((run {} actions).act a).reservations[r]? = some x') (haborted : x'.aborted = false) :
    Receipt (callback? = some .report ∨ x.callsBack a = true) (received r (run {} actions) [a])
      x' := by
  have hcaptured : x.phase ≠ .captured := fun hphase => hlaunches ((sound_run hx).captured hphase)
  obtain ⟨hlaunched, hattaching⟩ :=
    attaching_eq_none_of_isSettled (isSettled_of_isOffered hoffered hcaptured)
  -- A wait that expires and gives up requests an abort, and none was requested.
  have hspares : a = .expire r → x.consumer.expire.2.isGivenUp = false := by
    rintro rfl
    exact isGivenUp_expire_of_spared hx hlaunches hlaunched hoffered hx' haborted
  have hstep := getElem?_act_of_offered ha hdirect hx hoffered
  obtain rfl := Option.some.inj (hx'.symm.trans hstep)
  rw [received_singleton hx, handed_of_offered ha hdirect hx hoffered, howes.calls_eq]
  rcases Reservation.operated_of_owes howes ha hattaching hspares with
    ⟨hanswer, howes', hreport⟩ | ⟨o, ho, hhead⟩
  · rw [← Reservation.outcomes_operate a x] at howes'
    refine .owed howes' ?_ hreport
    rw [hanswer, howes'.calls_eq]
    rfl
  · refine .handed x.consumer.handle o ?_ ?_
    · rw [Reservation.outcomes_operate]
      exact ho
    · rw [List.head?_map, List.length_nil, List.drop_zero, hhead]
      rfl

/-- What others lead to for a caller that is owed the outcome. -/
theorem receipt_of_others {actions : List (Action V)}
    (hx : (run {} actions).reservations[r]? = some x) (hparent : x.parent = none)
    (howes : x.consumer.Owes callback? x.outcomes.head?) (ha : a.handle? ≠ some r)
    (hx' : ((run {} actions).act a).reservations[r]? = some x') :
    Receipt (callback? = some .report) (received r (run {} actions) [a]) x' := by
  rw [received_singleton hx, handed_of_handle?_ne ha hx hx', howes.calls_eq, List.length_nil,
    List.drop_zero]
  rcases Changes.owes (changes_of_act hx hx')
    (fun hby => ha (hby.caller_of_parent_eq_none hx hparent).1) (sound_run hx) howes with
      howes' | ⟨rfl, o, ho, hcall⟩
  · refine .owed howes' ?_ id
    rw [howes'.calls_eq]
    rfl
  · refine .handed x.consumer.handle o ho ?_
    rw [List.head?_map, List.head?_map, hcall, Handle.deliver_of_serves_report howes.serves]
    rfl

/-- What happens during one action to a caller that is owed the outcome. -/
theorem receipt_act {actions : List (Action V)} (hx : (run {} actions).reservations[r]? = some x)
    (hparent : x.parent = none) (hlaunches : x.launches ≠ 0)
    (howes : x.consumer.Owes callback? x.outcomes.head?)
    (hx' : ((run {} actions).act a).reservations[r]? = some x') (haborted : x'.aborted = false) :
    Receipt (callback? = some .report ∨
        a.handle? = some r ∧ isOffered x = true ∧ x.callsBack a = true)
      (received r (run {} actions) [a]) x' := by
  -- Nothing comes of an action that leaves everything as it was.
  have idle (hself : (run {} actions).act a = run {} actions)
      (hhanded : (run {} actions).handed r a = [])
      (hback : ¬(a.handle? = some r ∧ isOffered x = true ∧ x.callsBack a = true)) :
      Receipt (callback? = some .report ∨
          a.handle? = some r ∧ isOffered x = true ∧ x.callsBack a = true)
        (received r (run {} actions) [a]) x' := by
    rw [hself, hx] at hx'
    obtain rfl := Option.some.inj hx'
    rw [received_singleton hx, hhanded]
    exact .owed howes rfl fun hgiven => hgiven.resolve_right hback
  by_cases ha : a.handle? = some r
  · by_cases hoffered : isOffered x = true
    · by_cases hdirect : a = .runDirectly r
      · subst hdirect
        have hself := runDirectly_of_owes hx howes
        exact idle hself (by simp [handed, hself, answer?]) fun hback => nomatch hback.2.2
      · exact (receipt_operate hx hlaunches howes ha hdirect hoffered hx' haborted).weaken
          (Or.imp_right (·.2.2))
    · have hnot : ∀ y, (run {} actions).reservations[r]? = some y → isOffered y = false :=
        fun y hy => by
          obtain rfl := Option.some.inj (hx.symm.trans hy)
          exact Bool.eq_false_iff.mpr hoffered
      exact idle (act_of_not_offered ha hnot) (handed_of_not_offered ha hnot)
        fun hback => hoffered hback.2.1
  · exact (receipt_of_others hx hparent howes ha hx').weaken
      fun hgiven => hgiven.resolve_right fun hback => ha hback.1

/-- Once the computation was launched, the outcome is owed to its caller until it is handed to him,
and it is the first that he is handed, if no abort was requested. -/
theorem receipt_run {actions further : List (Action V)}
    (hx : (run {} actions).reservations[r]? = some x)
    (hparent : x.parent = none) (hlaunches : x.launches ≠ 0)
    (howes : x.consumer.Owes callback? x.outcomes.head?)
    (hx' : ((run {} actions).run further).reservations[r]? = some x')
    (haborted : x'.aborted = false) :
    Receipt (callback? = some .report ∨ GaveCallback r (run {} actions) further)
      (received r (run {} actions) further) x' := by
  induction hx' using run_induction_from hx with
  | start =>
    refine .owed howes rfl fun hgiven => hgiven.elim id ?_
    rintro ⟨before, a, after, y, hsplit, -⟩
    simp at hsplit
  | @act further a y _ hx' hy hgrows hchanges ih =>
    have hgrows' := Changes.grows hchanges
    rw [received_append]
    -- Before the last action the outcome was still owed, or was handed over already.
    rcases ih (hgrows'.aborted_eq_false haborted) with
      ⟨howes', hreceived, hgiven⟩ | ⟨h, o, houtcome, hreceived⟩
    · rw [hreceived, List.nil_append]
      have hlast (h : GaveCallback r ((run {} actions)) (further ++ [a])) :=
        gaveCallback_concat h hy
      rw [← run_append] at hy hx' ⊢
      rcases receipt_act hy (hgrows.parent_eq.trans hparent) (hgrows.launches_ne_zero hlaunches)
          howes' hx' haborted with ⟨howes'', hreceived', hgiven'⟩ | ⟨h, o, houtcome, hreceived'⟩
      · refine .owed howes'' hreceived' fun hgave => hgiven' ?_
        rcases hgave with hreport | hgave
        · exact .inl (hgiven (.inl hreport))
        · exact (hlast hgave).imp_left fun hgave => hgiven (.inr hgave)
      · exact .handed h o houtcome hreceived'
    · refine .handed h o (head?_eq_some_mono hgrows'.outcomes_prefix houtcome) ?_
      rw [List.head?_append, hreceived]
      rfl

end System

end Deferral
