import Deferral.Proofs.System.Agreement
import Deferral.Proofs.System.Flow

/-!
# Callers that block

A caller that blocks for a limited time has used its handle up, and is owed the outcome by the cell
alone. It stays so while others act, and a look is answered with the outcome exactly if that was
published. Afterwards the caller has no handle, nobody is handed anything any more, and no abort is
requested.

Main statements:
* `blocked_of_others`: while others act the caller goes on blocking, and is handed nothing.
* `blocked_look`: a look is answered with the outcome, and leaves the caller without a handle.
* `parted_act`: a caller without a handle is handed nothing, whatever is done.
* `blocked_of_launch`, `blocked_of_running`, `parted_of_done`: what a call comes to when it is made.
-/

namespace Deferral

variable {V : Type}

/-! ## Operations without a handle -/

/-- An operation on a handle that is gone does nothing. -/
theorem Consumer.begin_of_gone {c : Consumer V} (h : c.handle = .gone) (u : Use) :
    c.begin u = { consumer := c } := by
  cases c.begins u with
  | launched hl =>
    rw [h] at hl
    cases hl
  | continued hc =>
    rw [h] at hc
    cases hc
  | answered hhandle => rcases hhandle with hhandle | hhandle <;> cases h.symm.trans hhandle
  | told hhandle => cases h.symm.trans hhandle
  | ignored _ _ hbegin => exact hbegin

namespace Reservation

variable {x : Reservation V} {a : Action V}

/-- An operation on a handle that is gone does nothing, and is not answered. -/
theorem operate_of_gone (h : x.consumer.handle = .gone) (hphase : x.phase ≠ .captured)
    (a : Action V) : x.operate a = x ∧ x.answer? a = none := by
  have hwaiting : ∀ purpose, x.consumer.handle ≠ .waiting purpose := fun purpose hhandle => by
    cases h.symm.trans hhandle
  -- Every operation looks at the handle first, and does nothing if that is gone.
  cases a with
  | reshape q shape =>
    have hreshape : x.consumer.reshape shape = x.consumer := by rw [Consumer.reshape, h]
    exact ⟨by rw [operate, hreshape], rfl⟩
  | use q u =>
    refine ⟨?_, by rw [answer?, Consumer.begin_of_gone h]⟩
    simp [operate, Consumer.begin_of_gone h]
  | poll q waker =>
    have hpoll : x.consumer.poll waker = (x.consumer, none) := by rw [Consumer.poll, h]
    exact ⟨by rw [operate, hpoll], by rw [answer?, hpoll]⟩
  | fetch q =>
    have hfetch := Consumer.fetch_of_not_waiting hwaiting
    exact ⟨by rw [operate, hfetch], by rw [answer?, hfetch]⟩
  | expire q =>
    have hexpire := Consumer.expire_of_not_waiting hwaiting
    exact ⟨by simp [operate, hexpire, Consumer.Expiry.isGivenUp], by rw [answer?, hexpire]; rfl⟩
  | complete q =>
    have hcomplete : x.consumer.complete = x.consumer :=
      Consumer.complete_of_ne_future (by simp [h])
    exact ⟨by rw [operate, hcomplete], rfl⟩
  | cancel q => exact ⟨by simp [operate, h, Consumer.canCancel], rfl⟩
  | drop q =>
    have hdrop : x.consumer.drop = x.consumer := by
      rw [Consumer.drop, h]
      dsimp only
      rw [← h]
    refine ⟨?_, rfl⟩
    show x.dropHandle = x
    rw [dropHandle, if_neg (by simp [h, Consumer.givesUp]), if_neg hphase, hdrop]
  | _ => exact ⟨rfl, rfl⟩

/-- No callback is going to be invoked with the outcome. -/
structure Uncalled (x : Reservation V) : Prop where
  /-- None is to be registered. -/
  attaching_eq : x.consumer.attaching = none
  /-- None is registered, or nothing more is published. -/
  unheard : x.consumer.cell.callback = none ∨ x.phase.isOver = true

/-- The caller of a reservation has no handle left, and has left no callback behind. -/
structure Parted (x : Reservation V) : Prop where
  /-- A caller has made it. -/
  parent_eq : x.parent = none
  /-- Its handle is used up. -/
  handle_eq : x.consumer.handle = .gone
  /-- No callback is going to be invoked with the outcome. -/
  uncalled : x.Uncalled

/-- The caller of a reservation blocks for the outcome, for at most `d`. -/
structure Blocked (d : Duration) (x : Reservation V) : Prop where
  /-- A caller has made it. -/
  parent_eq : x.parent = none
  /-- The computation was launched. -/
  launches_ne : x.launches ≠ 0
  /-- The handle was used up in order to wait. -/
  handle_eq : x.consumer.handle = .waiting (.blocking d)
  /-- The outcome is in the cell, if it was published. -/
  owes : x.consumer.Owes none x.outcomes.head?

/-- A caller that blocks has given no callback. -/
theorem Blocked.uncalled {d : Duration} (h : x.Blocked d) : x.Uncalled :=
  ⟨h.owes.slot_eq.1, .inl h.owes.slot_eq.2.1⟩

end Reservation

namespace System

variable {w : System V} {a : Action V} {r : ReservationId} {x x' : Reservation V} {d : Duration}
  {actions : List (Action V)}

/-! ## What others do -/

/-- As long as no callback waits for the outcome, none is invoked. -/
theorem Change.uncalled (h : w.Change r a x x') (hby : ¬w.Handles r a) (hx : x.Uncalled) :
    x'.Uncalled ∧ x'.consumer.calls = x.consumer.calls := by
  have hattaching := hx.attaching_eq
  -- What is published finds no callback, as something is published only once.
  have publishes (o : Outcome V) (hover : x.phase.isOver = false) :
      (x.consumer.publish o).attaching = none ∧
        (x.consumer.publish o).calls = x.consumer.calls := by
    have hcallback := hx.unheard.resolve_right (by rw [hover]; nofun)
    refine ⟨by rw [Consumer.attaching_publish, hattaching], ?_⟩
    rw [Consumer.publish, Cell.publish_of_no_callback hcallback]
    rfl
  have hkeeps := fun hover => (h.eq_of_isOver hover).1
  cases h with
  | handle _ hby' => exact absurd hby' hby
  | attach =>
    have hattach : x.consumer.attach = x.consumer := by rw [Consumer.attach, hattaching]
    rw [hattach]
    exact ⟨hx, rfl⟩
  | refuse _ _ hphase =>
    obtain ⟨hattaching', hcalls⟩ := publishes (.error .scopeClosed) (by rw [hphase]; rfl)
    exact ⟨⟨hattaching', .inr rfl⟩, hcalls⟩
  | lose hphase =>
    obtain ⟨hattaching', hcalls⟩ := publishes (.error .cancelled) (by rw [hphase]; rfl)
    exact ⟨⟨hattaching', .inr rfl⟩, hcalls⟩
  | finish hphase =>
    obtain ⟨hattaching', hcalls⟩ := publishes _ (Phase.isOver_of_isActive hphase)
    exact ⟨⟨hattaching', .inr rfl⟩, hcalls⟩
  | drop _ hphase =>
    obtain ⟨hattaching', hcalls⟩ :=
      publishes (.error .cancelled) (Phase.isOver_of_isSuspended hphase)
    exact ⟨⟨hattaching', .inr rfl⟩, hcalls⟩
  | launch | clear | clearDirectly | queue | letGo | abort | discard | start | advance | pause
  | engage =>
    exact ⟨⟨hattaching, hx.unheard.imp_right fun hover => by rw [hkeeps hover, hover]⟩, rfl⟩

/-- As long as no callback waits for the outcome, none is invoked. -/
theorem Changes.uncalled (h : w.Changes r a x x') (hby : ¬w.Handles r a) (hx : x.Uncalled) :
    x'.Uncalled ∧ x'.consumer.calls = x.consumer.calls := by
  refine Changes.preserve (P := fun y => y.Uncalled ∧ y.consumer.calls = x.consumer.calls)
    (fun y y' hchange hy => ?_) h ⟨hx, rfl⟩
  obtain ⟨huncalled, hcalls⟩ := hchange.uncalled hby hy.1
  exact ⟨huncalled, hcalls.trans hy.2⟩

/-- Who does nothing with the handle of a caller hands him nothing, if he has given no callback, and
requests no abort. -/
theorem uncalled_of_others (hx : (run {} actions).reservations[r]? = some x)
    (hparent : x.parent = none) (ha : a.handle? ≠ some r) (huncalled : x.Uncalled)
    (hx' : ((run {} actions).act a).reservations[r]? = some x') :
    x'.Uncalled ∧ x'.consumer.handle = x.consumer.handle ∧ x'.aborted = x.aborted ∧
      (run {} actions).handed r a = [] := by
  have hchanges := changes_of_act hx hx'
  -- Only the caller does anything with the handle of a reservation that he has made.
  have hby : ¬(run {} actions).Handles r a := fun hby =>
    ha (hby.caller_of_parent_eq_none hx hparent).1
  obtain ⟨huncalled', hcalls⟩ := Changes.uncalled hchanges hby huncalled
  refine ⟨huncalled', Changes.handle_eq hchanges hby, ?_, ?_⟩
  · rw [Bool.eq_iff_iff, aborted_act hx hx']
    exact ⟨fun h => h.resolve_right fun hgives => hby (hgives.2.handles hx), .inl⟩
  · rw [handed_of_handle?_ne ha hx hx', hcalls, List.drop_length, List.map_nil]

/-! ## Callers without a handle -/

/-- Whatever a caller without a handle tries with it, nothing comes of it. -/
theorem act_of_gone (hx : (run {} actions).reservations[r]? = some x)
    (hhandle : x.consumer.handle = .gone) (ha : a.handle? = some r) :
    ((run {} actions).act a).reservations[r]? = some x ∧ (run {} actions).handed r a = [] := by
  by_cases hoffered : isOffered x = true
  · have hphase : x.phase ≠ .captured := (aligned_run hx).ne_captured (by rw [hhandle]; rfl)
    by_cases hdirect : a = .runDirectly r
    · subst hdirect
      have hself : (run {} actions).act (.runDirectly r) = run {} actions :=
        runDirectly_eq_self hx (by rw [hhandle]; nofun)
      exact ⟨by rw [hself, hx], by simp [handed, hself, answer?]⟩
    · obtain ⟨hoperate, hanswer⟩ := Reservation.operate_of_gone hhandle hphase a
      refine ⟨by rw [getElem?_act_of_offered ha hdirect hx hoffered, hoperate], ?_⟩
      rw [handed_of_offered ha hdirect hx hoffered, hanswer, hoperate, List.drop_length]
      rfl
  · have hnot : ∀ y, (run {} actions).reservations[r]? = some y → isOffered y = false := by
      intro y hy
      obtain rfl := Option.some.inj (hx.symm.trans hy)
      exact Bool.eq_false_iff.mpr hoffered
    exact ⟨by rw [act_of_not_offered ha hnot, hx], handed_of_not_offered ha hnot⟩

/-- A caller without a handle is handed nothing, whatever is done, and requests no abort. -/
theorem parted_act (hx : (run {} actions).reservations[r]? = some x) (h : x.Parted)
    (hx' : ((run {} actions).act a).reservations[r]? = some x') :
    x'.Parted ∧ x'.aborted = x.aborted ∧ (run {} actions).handed r a = [] := by
  by_cases ha : a.handle? = some r
  · obtain ⟨hstays, hhanded⟩ := act_of_gone hx h.handle_eq ha
    obtain rfl := Option.some.inj (hx'.symm.trans hstays)
    exact ⟨h, rfl, hhanded⟩
  · obtain ⟨huncalled, hhandle, haborted, hhanded⟩ :=
      uncalled_of_others hx h.parent_eq ha h.uncalled hx'
    have hgrows := grows_of_act hx hx'
    exact ⟨⟨hgrows.parent_eq.trans h.parent_eq, hhandle.trans h.handle_eq, huncalled⟩, haborted,
      hhanded⟩

/-! ## Callers that block -/

/-- While others act a caller goes on blocking, and is handed nothing. -/
theorem blocked_of_others (hx : (run {} actions).reservations[r]? = some x) (h : x.Blocked d)
    (ha : a.handle? ≠ some r) (hx' : ((run {} actions).act a).reservations[r]? = some x') :
    x'.Blocked d ∧ x'.aborted = x.aborted ∧ (run {} actions).handed r a = [] := by
  obtain ⟨-, -, haborted, hhanded⟩ := uncalled_of_others hx h.parent_eq ha h.uncalled hx'
  have hothers : ∀ b ∈ [a], b.handle? ≠ some r := by simpa using ha
  -- That the outcome is owed lasts as long as the caller does nothing.
  obtain ⟨hhandle, howes⟩ := owes_of_others hothers hx h.parent_eq h.owes (by simp) hx'
  have hgrows := grows_of_act hx hx'
  exact ⟨⟨hgrows.parent_eq.trans h.parent_eq, hgrows.launches_ne_zero h.launches_ne,
    hhandle.trans h.handle_eq, howes⟩, haborted, hhanded⟩

/-- The time of a caller that blocks is up in vain exactly if the outcome was not published. -/
theorem isGivenUp_expireAnswer_iff (hx : w.reservations[r]? = some x) (h : x.Blocked d)
    (hoffered : isOffered x = true) :
    (w.expireAnswer r).isGivenUp = true ↔ x.outcomes = [] := by
  obtain ⟨-, -, hslot⟩ := h.owes.slot_eq
  simp only [expireAnswer, hx, if_pos hoffered, Consumer.isGivenUp_expire_iff, h.handle_eq, hslot]
  cases x.outcomes <;> simp [Slot.ofOption]

/-- A caller that looks and finds no outcome has a task to abort: a launch that has left none has
published the outcome itself. -/
theorem spawned_of_blocked (hx : (run {} actions).reservations[r]? = some x) (h : x.Blocked d)
    (hoffered : isOffered x = true) (houtcomes : x.outcomes = []) :
    x.isSettled = true ∧ x.spawned = true := by
  have hphase : x.phase ≠ .captured := (aligned_run hx).ne_captured (by rw [h.handle_eq]; rfl)
  have hsettled := isSettled_of_isOffered hoffered hphase
  have hlaunched := (attaching_eq_none_of_isSettled hsettled).1
  refine ⟨hsettled, (spawned_or_outcomes_ne_nil hx hlaunched h.launches_ne).resolve_right ?_⟩
  exact fun hne => hne houtcomes

/-- A look at which the outcome is there is answered with it, and leaves the caller
without a handle. -/
theorem blocked_look (hx : (run {} actions).reservations[r]? = some x) (h : x.Blocked d)
    (hoffered : isOffered x = true) (ha : a = .fetch r ∨ a = .expire r) {o : Outcome V}
    (ho : x.outcomes.head? = some o) (hx' : ((run {} actions).act a).reservations[r]? = some x') :
    x'.Parted ∧ x'.outcomes = x.outcomes ∧ x'.aborted = x.aborted ∧
      (run {} actions).handed r a = [.outcome o] := by
  obtain ⟨hattaching, hcallback, hslot⟩ := h.owes.slot_eq
  rw [ho] at hslot
  have hfetch : x.consumer.fetch = ({ x.consumer with
      cell := { x.consumer.cell with slot := .taken }, handle := .gone }, some (.outcome o)) := by
    simp [Consumer.fetch, h.handle_eq, Cell.take?, hslot, Slot.ofOption, Consumer.Waiting.deliver]
  have hexpire : x.consumer.expire = (x.consumer.fetch.1, .delivered (.outcome o)) := by
    rw [Consumer.expire, hfetch]
  have hhandle : a.handle? = some r := by
    rcases ha with rfl | rfl <;> rfl
  -- To look in time and to look for the last time come to the same.
  have hdirect : a ≠ .runDirectly r := by
    rcases ha with rfl | rfl <;> simp
  have hoperate : x.operate a = { x with consumer := x.consumer.fetch.1 } := by
    rcases ha with rfl | rfl
    · rfl
    · simp [Reservation.operate, hexpire, Consumer.Expiry.isGivenUp]
  have hanswer : x.answer? a = some (.outcome o) := by
    rcases ha with rfl | rfl
    · rw [Reservation.answer?, hfetch]
    · rw [Reservation.answer?, hexpire]
      rfl
  have hhanded := handed_of_offered hhandle hdirect hx hoffered
  rw [getElem?_act_of_offered hhandle hdirect hx hoffered, hoperate, hfetch] at hx'
  rw [hanswer, hoperate, hfetch, List.drop_length] at hhanded
  obtain rfl := Option.some.inj hx'
  exact ⟨⟨h.parent_eq, rfl, hattaching, .inl hcallback⟩, rfl, rfl, hhanded⟩

/-- A look at which the outcome is not there leaves a caller blocking, if he does not give up. -/
theorem blocked_look_of_pending (hx : (run {} actions).reservations[r]? = some x) (h : x.Blocked d)
    (ha : a = .fetch r ∨ a = .expire r)
    (hspares : a = .expire r → ((run {} actions).expireAnswer r).isGivenUp = false)
    (hpending : isOffered x = true → x.outcomes = []) :
    ((run {} actions).act a).reservations[r]? = some x ∧ (run {} actions).handed r a = [] := by
  have hhandle : a.handle? = some r := by
    rcases ha with rfl | rfl <;> rfl
  by_cases hoffered : isOffered x = true
  · have houtcomes := hpending hoffered
    rcases ha with rfl | rfl
    · have hfetch := h.owes.fetch h.handle_eq
      rw [houtcomes] at hfetch
      have hoperate : x.operate (.fetch r) = x := by
        rw [Reservation.operate, Consumer.fetch_eq_self hfetch]
      refine ⟨by rw [getElem?_act_of_offered hhandle (by simp) hx hoffered, hoperate], ?_⟩
      rw [handed_of_offered hhandle (by simp) hx hoffered, hoperate, Reservation.answer?, hfetch,
        List.drop_length]
      rfl
    -- A last look without the outcome would give up.
    · have hgiven := (isGivenUp_expireAnswer_iff hx h hoffered).mpr houtcomes
      cases (hspares rfl).symm.trans hgiven
  · have hnot : ∀ y, (run {} actions).reservations[r]? = some y → isOffered y = false := by
      intro y hy
      obtain rfl := Option.some.inj (hx.symm.trans hy)
      exact Bool.eq_false_iff.mpr hoffered
    exact ⟨by rw [act_of_not_offered hhandle hnot, hx], handed_of_not_offered hhandle hnot⟩

/-! ## Beginning to block -/

/-- A call that launches the computation makes its caller block, and hands him nothing. -/
theorem blocked_of_launch (hx : (run {} actions).reservations[r]? = some x)
    (hoffered : isOffered x = true)
    (hhandle : x.consumer.handle = .reservation ∨ x.consumer.handle = .mono .idle)
    (hx' : ((run {} actions).act (.use r (.block (some d)))).reservations[r]? = some x') :
    x'.phase = .launching ∧ x'.Blocked d ∧
      (run {} actions).handed r (.use r (.block (some d))) = [] := by
  have hbegin : x.consumer.begin (.block (some d)) =
      { consumer := { x.consumer with handle := .waiting (.blocking d) }, launch := true } := by
    rcases hhandle with hhandle | hhandle <;> simp only [Consumer.begin, hhandle] <;> rfl
  have hstarts : (Action.use r (.block (some d)) : Action V).starts r x = true :=
    Action.starts_iff.mpr ⟨hoffered, by rw [hbegin]⟩
  -- What launches leaves the outcome owed, and to a caller that blocks no callback
  -- is owed anything.
  obtain ⟨callback?, y, hy, hparent, hlaunches, hconsumer, howes, -, hreceived⟩ :=
    owes_launch hx hstarts
  rw [run_concat] at hy
  obtain rfl := Option.some.inj (hx'.symm.trans hy)
  have hwaiting : x'.consumer.handle = .waiting (.blocking d) := by rw [hconsumer, hbegin]
  have hphase : x'.phase = .launching := by
    rw [getElem?_act_of_offered (a := .use r (.block (some d))) rfl (by simp) hx hoffered,
      Reservation.operate, if_pos ⟨by rw [hbegin], (captured_of_starts hx hstarts).1⟩] at hx'
    rw [← Option.some.inj hx']
  obtain rfl := Handle.eq_none_of_looks (by rw [hwaiting]; rfl) howes.serves
  refine ⟨hphase, ⟨hparent, hlaunches, hwaiting, howes⟩, ?_⟩
  rw [received_append, received_singleton hx, List.append_eq_nil_iff] at hreceived
  exact List.map_eq_nil_iff.mp hreceived.2

/-- A call on a mono that runs makes its caller block, and hands him nothing. -/
theorem blocked_of_running (hx : (run {} actions).reservations[r]? = some x)
    (hoffered : isOffered x = true) (hhandle : x.consumer.handle = .mono .running)
    (hx' : ((run {} actions).act (.use r (.block (some d)))).reservations[r]? = some x') :
    x'.Blocked d ∧ (run {} actions).handed r (.use r (.block (some d))) = [] := by
  have hbegin : x.consumer.begin (.block (some d)) =
      { consumer := { x.consumer with handle := .waiting (.blocking d) } } := by
    simp only [Consumer.begin, hhandle]
    rfl
  have hoperate : x.operate (.use r (.block (some d))) =
      { x with consumer := { x.consumer with handle := .waiting (.blocking d) } } := by
    simp [Reservation.operate, hbegin]
  have hparent := parent_eq_none_of_isOffered hoffered
  have hlaunches : x.launches = 1 := (aligned_run hx).launches_eq (by rw [hhandle]; rfl)
  -- The mono has not yielded, so the outcome is still in the cell.
  have howes : x.consumer.Owes none x.outcomes.head? := by
    cases flow_run hx with
    | waiting _ _ howes =>
      obtain ⟨callback?, howes⟩ := howes (by rw [hhandle]; rfl)
      obtain rfl := Handle.eq_none_of_looks (by rw [hhandle]; rfl) howes.serves
      exact howes
    | yielded _ _ _ _ _ hspent =>
      cases hspent (by rw [hhandle]; rfl) with
      | mono _ hdone => cases hhandle.symm.trans hdone
      | stream _ hstream => cases hhandle.symm.trans hstream
  obtain ⟨hattaching, hcallback, hslot⟩ := howes.slot_eq
  have hhanded := handed_of_offered (a := .use r (.block (some d))) rfl (by simp) hx hoffered
  rw [getElem?_act_of_offered (a := .use r (.block (some d))) rfl (by simp) hx hoffered,
    hoperate] at hx'
  obtain rfl := Option.some.inj hx'
  refine ⟨⟨hparent, by rw [hlaunches]; exact Nat.one_ne_zero, rfl,
    Consumer.owes_of_slot rfl howes.calls_eq hattaching hcallback hslot⟩, ?_⟩
  rw [hhanded, hoperate, Reservation.answer?, hbegin, List.drop_length]
  rfl

/-- A call on a mono that has yielded is answered at once that there is no outcome any more. -/
theorem parted_of_done (hx : (run {} actions).reservations[r]? = some x)
    (hoffered : isOffered x = true) (hhandle : x.consumer.handle = .mono .done)
    (hx' : ((run {} actions).act (.use r (.block (some d)))).reservations[r]? = some x') :
    x'.Parted ∧ (run {} actions).handed r (.use r (.block (some d))) = [.outcome spent] := by
  have hbegin : x.consumer.begin (.block (some d)) =
      { consumer := { x.consumer with handle := .gone }, answer := some (.outcome spent) } := by
    simp only [Consumer.begin, hhandle]
  have hoperate : x.operate (.use r (.block (some d))) =
      { x with consumer := { x.consumer with handle := .gone } } := by
    simp [Reservation.operate, hbegin]
  have hparent := parent_eq_none_of_isOffered hoffered
  have hattaching : x.consumer.attaching = none :=
    attaching_eq_none_of_flows hx hoffered (by rw [hhandle]; rfl)
  -- A mono yields only what was published, so the computation is over.
  have hover : x.phase.isOver = true := (isOver_of_hasYielded hx (by rw [hhandle]; rfl)).1
  have hhanded := handed_of_offered (a := .use r (.block (some d))) rfl (by simp) hx hoffered
  rw [getElem?_act_of_offered (a := .use r (.block (some d))) rfl (by simp) hx hoffered,
    hoperate] at hx'
  obtain rfl := Option.some.inj hx'
  refine ⟨⟨hparent, rfl, hattaching, .inr hover⟩, ?_⟩
  rw [hhanded, hoperate, Reservation.answer?, hbegin, List.drop_length]
  rfl

end System

end Deferral
