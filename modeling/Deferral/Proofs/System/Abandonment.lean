import Deferral.Proofs.System.Operation
import Deferral.Proofs.System.Custody
import Deferral.Proofs.System.Provenance

/-!
# Giving up

An abort of a computation is requested exactly when its consumer gives it up: on demand, when a
bounded wait for the outcome fails for good, or when a handle is dropped that has started the
computation by being polled and may still be waiting for it. Everything else that consumes a handle
leaves the computation alone.

Main statements:
* `aborted_act`: an action requests an abort exactly if the consumer gives up by it.
* `abandonment_run`: in every run, an abort was requested exactly if the consumer gave up.
-/

namespace Deferral

variable {V : Type}

/-! ## Handles -/

namespace Channel

variable {A : Type}

/-- Something is received if it is there, or nothing can come any more. -/
theorem receive_isSome (w : Waker) (c : Channel A) : (c.receive w).2.isSome = c.isReady := by
  unfold receive isReady
  split
  next hitem => simp [hitem]
  next hitem => cases hsending : c.sending <;> simp [hitem]

end Channel

namespace Consumer

variable {c : Consumer V}

/-- A handle that has found what it looked for gives the computation up when it is dropped only if
it is that of a stream. -/
theorem givesUp_look_iff (w : Waker) (c : Consumer V) :
    (c.look w).2 ≠ none ∧ givesUp (c.look w).1.handle = true ↔
      c.handle = .stream .running ∧ c.channel.isReady = true := by
  have hreceive := Channel.receive_isSome w c.channel
  unfold look poll fetch
  -- Only the handle of a running stream is still one that gives up once it has found something.
  rcases hhandle : c.handle with _ | _ | stage | stage | stage | purpose | live | _
  · simp [hhandle, givesUp]
  · simp [givesUp]
  · rcases stage with _ | _ | _
    · simp [hhandle, givesUp]
    · dsimp only
      split <;> simp [givesUp]
    · simp [hhandle, givesUp]
  · rcases stage with _ | _ | _
    · simp [hhandle, givesUp]
    · dsimp only
      split <;> simp [givesUp]
    · simp [hhandle, givesUp]
  · rcases stage with _ | _ | _
    · simp [hhandle, givesUp]
    · rw [← hreceive]
      simp [givesUp, Option.isSome_iff_ne_none]
    · simp [hhandle, givesUp]
  · dsimp only
    split <;> simp [givesUp]
  · simp [hhandle, givesUp]
  · simp [hhandle, givesUp]

/-- A wait whose time is up gives the computation up if it has a bound, no handle to hand back, and
nothing to deliver. -/
theorem isGivenUp_expire_iff (c : Consumer V) :
    c.expire.2.isGivenUp = true ↔
      (∃ limit, c.handle = .waiting (.blocking limit)) ∧ c.cell.slot = .pending := by
  cases c.expires with
  | delivered hhandle hcell hexpire =>
    have hdone : c.cell.isDone = true := Cell.isDone_of_take? hcell
    have hslot : c.cell.slot ≠ .pending := fun hpending => by
      rw [Cell.isDone, hpending] at hdone
      cases hdone
    simp [hexpire, Expiry.isGivenUp, hslot]
  | handedBack hhandle _ hexpire => simp [hexpire, Expiry.isGivenUp, hhandle]
  | givenUp hhandle hpending hexpire => simp [hexpire, Expiry.isGivenUp, hhandle, hpending]
  | unbounded _ hblocking _ hexpire => simp [hexpire, Expiry.isGivenUp, hblocking]

/-- Whether the handle is what is left of one that has yielded the outcome. -/
def hasYielded : Handle → Bool
  | .mono .done | .maybe .done | .subscription false => true
  | _ => false

/-- A caller that blocks has been given nothing yet. -/
theorem hasYielded_blockingWait (limit : Option Duration) :
    hasYielded (blockingWait limit) = false := by
  cases limit <;> rfl

/-- What launches the computation leads to a handle that has yielded nothing. -/
theorem Launches.hasYielded_eq_false {u : Use} {h h' : Handle} {callback? : Option Callback}
    (hl : Launches u h h' callback?) : hasYielded h' = false := by
  cases hl with
  | block limit | monoBlock limit => exact hasYielded_blockingWait limit
  | spawn | get | subscribe | mono | maybe | stream => rfl

theorem Continues.hasYielded_eq_false {u : Use} {h h' : Handle} {callback? : Option Callback}
    (hc : Continues u h h' callback?) : hasYielded h' = false := by
  cases hc with
  | block limit => exact hasYielded_blockingWait limit
  | join | joinWithin | get | subscribe => rfl

/-- A handle has yielded only what was published. -/
theorem Handling.isDone_of_hasYielded {c' : Consumer V} (h : c.Handling c')
    (hc : hasYielded c.handle = true → c.cell.isDone = true)
    (hyielded : hasYielded c'.handle = true) :
    c'.cell.isDone = true := by
  -- What is done with the handle publishes nothing: the handle had yielded before, or
  -- the cell was full.
  have hkeeps : c'.cell.isDone = c.cell.isDone := h.spends.isDone_eq
  rw [hkeeps]
  cases h with
  | reshape shape =>
    unfold Consumer.reshape at hyielded
    split at hyielded
    · cases shape <;> cases hyielded
    · exact hc hyielded
  | begin u =>
    cases c.begins u with
    | launched hl hbegin =>
      rw [hbegin] at hyielded
      cases hl.hasYielded_eq_false.symm.trans hyielded
    | continued hcontinues hbegin =>
      rw [hbegin] at hyielded
      cases hcontinues.hasYielded_eq_false.symm.trans hyielded
    | answered _ hbegin =>
      rw [hbegin] at hyielded
      cases hyielded
    | told hhandle => exact hc (by rw [hhandle]; rfl)
    | ignored _ _ hbegin =>
      rw [hbegin] at hyielded
      exact hc hyielded
  | wait => cases hyielded
  | poll w =>
    cases c.polls w with
    | mono _ hcell | maybe _ hcell => exact Cell.isDone_of_poll hcell
    | pending _ _ hpoll | future _ _ hpoll | stream _ _ hpoll | done _ hpoll | ignored hpoll =>
      rw [hpoll] at hyielded
      exact hc hyielded
  | fetch =>
    cases c.fetches with
    | fetched _ _ hfetch =>
      rw [hfetch] at hyielded
      cases hyielded
    | pending _ _ hfetch | ignored _ hfetch =>
      rw [hfetch] at hyielded
      exact hc hyielded
  | expire =>
    cases c.expires with
    | delivered _ _ hexpire | handedBack _ _ hexpire | givenUp _ _ hexpire =>
      rw [hexpire] at hyielded
      cases hyielded
    | unbounded _ _ _ hexpire =>
      rw [hexpire] at hyielded
      exact hc hyielded
  | complete =>
    unfold Consumer.complete at hyielded
    split at hyielded
    · rw [handle_register] at hyielded
      cases hyielded
    · exact hc hyielded
  | drop =>
    unfold Consumer.drop at hyielded
    split at hyielded <;> cases hyielded

end Consumer

/-! ## One action -/

namespace System

variable {w : System V} {a : Action V} {r : ReservationId} {x x' : Reservation V}

/-- By the action `a` the consumer of the reservation `r`, which is `x`, gives the
computation up. -/
inductive GivesUp (w : System V) (r : ReservationId) (x : Reservation V) : Action V → Prop
  /-- It cancels a future, or disposes of a subscription. -/
  | cancel (hoffered : isOffered x = true)
      (hcancel : Consumer.canCancel x.consumer.handle = true) : GivesUp w r x (.cancel r)
  /-- Its time is up, there is no outcome, and there is no handle to hand back. -/
  | expire {limit : Duration} (hoffered : isOffered x = true)
      (hhandle : x.consumer.handle = .waiting (.blocking limit))
      (hpending : x.consumer.cell.slot = .pending) : GivesUp w r x (.expire r)
  /-- It drops a handle that was polled and has not yielded, or that of a started stream. -/
  | drop (hoffered : isOffered x = true)
      (hgives : Consumer.givesUp x.consumer.handle = true) : GivesUp w r x (.drop r)
  /-- It is a computation with such a handle, and is dropped itself. -/
  | dropTask {p : ReservationId} {y : Reservation V} (hy : w.reservations[p]? = some y)
      (hphase : y.phase = .paused (.inner r)) (hdoomed : w.isDoomed y = true)
      (hgives : Consumer.givesUp x.consumer.handle = true) : GivesUp w r x (.dropTask p)
  /-- It is a computation that drops a stream because it has got the item. -/
  | step {p : ReservationId} {y : Reservation V} (hy : w.reservations[p]? = some y)
      (hphase : y.phase = .active (.engaged r)) (hcan : w.canStep y = true)
      (hhandle : x.consumer.handle = .stream .running)
      (hready : x.consumer.channel.isReady = true) : GivesUp w r x (.step p)

/-- Who gives a computation up does something with its handle. -/
theorem GivesUp.handles (h : w.GivesUp r x a) (hx : w.reservations[r]? = some x) :
    w.Handles r a := by
  cases h with
  | cancel hoffered | expire hoffered | drop hoffered => exact .caller rfl hx hoffered
  | dropTask hy hphase hdoomed => exact .dropTask hy hphase hdoomed
  | step hy hphase => exact .step hy hphase

/-- Who asks for an abort does something with the handle. -/
theorem AsksAbort.handles (h : w.AsksAbort r a) : w.Handles r a := by
  cases h with
  | cancel hx hoffered | expire hx hoffered | drop hx hoffered => exact .caller rfl hx hoffered
  | dropTask _ hy hphase hdoomed => exact .dropTask hy hphase hdoomed
  | step _ hy hphase => exact .step hy hphase

/-- Dropping a handle requests an abort exactly if the handle gives the computation up. -/
theorem aborted_dropHandle (x : Reservation V) :
    x.dropHandle.aborted = true ↔
      x.aborted = true ∨ x.spawned = true ∧ Consumer.givesUp x.consumer.handle = true := by
  unfold Reservation.dropHandle
  split
  next hgives => simp [hgives]
  next hgives => split <;> simp [hgives]

/-- Looking for the result of a nested reservation requests an abort exactly if it is the item of a
stream, and it is there. -/
theorem aborted_lookedAt (waker : Waker) (x : Reservation V) :
    (x.lookedAt waker).aborted = true ↔ x.aborted = true ∨ x.spawned = true ∧
      x.consumer.handle = .stream .running ∧ x.consumer.channel.isReady = true := by
  rw [← Consumer.givesUp_look_iff waker]
  unfold Reservation.lookedAt
  split
  next d hd => simp [aborted_dropHandle, hd]
  next hd => simp [hd]

/-- An operation of a caller requests an abort exactly if the caller gives the computation up. -/
theorem aborted_operate (ha : a.handle? = some r) (hoffered : isOffered x = true) :
    (x.operate a).aborted = true ↔
      x.aborted = true ∨ x.spawned = true ∧ w.GivesUp r x a := by
  -- Three operations can request an abort, and each does so under the condition of `GivesUp`.
  cases a with
  | cancel q =>
    obtain rfl := Option.some.inj ha
    rw [show (x.operate (.cancel q)).aborted =
      (x.aborted || Consumer.canCancel x.consumer.handle && x.spawned) from rfl,
      Bool.or_eq_true, Bool.and_eq_true]
    refine or_congr_right ⟨fun h => ⟨h.2, .cancel hoffered h.1⟩, fun ⟨hspawned, h⟩ => ?_⟩
    cases h with
    | cancel _ hcancel => exact ⟨hcancel, hspawned⟩
  | expire q =>
    obtain rfl := Option.some.inj ha
    rw [show (x.operate (.expire q)).aborted =
      (x.aborted || x.consumer.expire.2.isGivenUp && x.spawned) from rfl,
      Bool.or_eq_true, Bool.and_eq_true, Consumer.isGivenUp_expire_iff]
    refine or_congr_right ⟨?_, fun ⟨hspawned, h⟩ => ?_⟩
    · rintro ⟨⟨⟨limit, hhandle⟩, hpending⟩, hspawned⟩
      exact ⟨hspawned, .expire hoffered hhandle hpending⟩
    · cases h with
      | expire _ hhandle hpending => exact ⟨⟨⟨_, hhandle⟩, hpending⟩, hspawned⟩
  | drop q =>
    obtain rfl := Option.some.inj ha
    rw [show x.operate (.drop q) = x.dropHandle from rfl, aborted_dropHandle]
    refine or_congr_right (and_congr_right fun _ => ⟨.drop hoffered, fun h => ?_⟩)
    cases h with
    | drop _ hgives => exact hgives
  | use q u =>
    have hkeeps : (x.operate (.use q u)).aborted = x.aborted := by
      unfold Reservation.operate
      dsimp only
      split <;> rfl
    rw [hkeeps]
    exact ⟨.inl, fun h => h.resolve_right fun ⟨_, h⟩ => nomatch h⟩
  | reshape | poll | fetch | complete | runDirectly =>
    exact ⟨.inl, fun h => h.resolve_right fun ⟨_, h⟩ => nomatch h⟩
  | _ => cases ha

/-- An action requests an abort exactly if the consumer gives the computation up by it, and there is
a task to abort. -/
theorem aborted_act {actions : List (Action V)} (h : (run {} actions).reservations[r]? = some x)
    (hx' : ((run {} actions).act a).reservations[r]? = some x') :
    x'.aborted = true ↔
      x.aborted = true ∨ x.spawned = true ∧ (run {} actions).GivesUp r x a := by
  have hchanges := changes_of_act h hx'
  have haccounted := Changes.accounted hchanges
  -- Without anything done with the handle there is neither a request nor a reason for one.
  have unasked (hasks : ¬(run {} actions).AsksAbort r a)
      (hgives : ¬(run {} actions).GivesUp r x a) : x'.aborted = true ↔
        x.aborted = true ∨ x.spawned = true ∧ (run {} actions).GivesUp r x a :=
    ⟨fun h => .inl ((haccounted.aborted h).resolve_right hasks),
      fun h => haccounted.aborted_of_aborted (h.resolve_right fun h => hgives h.2)⟩
  by_cases hby : (run {} actions).Handles r a
  · cases hby.handled h hx' with
    | operate ha _ hoffered => exact aborted_operate ha hoffered
    | runDirectly => exact unasked (fun hasks => by cases hasks) fun hgives => by cases hgives
    | look access hy hphase _ hcan =>
      rw [aborted_lookedAt]
      refine or_congr_right (and_congr_right fun _ => ⟨fun h => ?_, fun h => ?_⟩)
      · exact .step hy hphase hcan h.1 h.2
      · cases h with
        | step _ _ _ hhandle hready => exact ⟨hhandle, hready⟩
    | stay hy _ hcan =>
      refine ⟨.inl, fun h' => h'.resolve_right fun h => ?_⟩
      cases h.2 with
      | step hy' _ hcan' =>
        obtain rfl := Option.some.inj (hy.symm.trans hy')
        cases hcan.symm.trans hcan'
    | dropTask hy hphase hdoomed =>
      rw [aborted_dropHandle]
      refine or_congr_right (and_congr_right fun _ => ⟨.dropTask hy hphase hdoomed, fun h => ?_⟩)
      cases h with
      | dropTask _ _ _ hgives => exact hgives
  · exact unasked (fun h => hby h.handles) fun hgives => hby (hgives.handles h)

/-! ## Runs -/

/-- A handle that has yielded was answered from the cell. -/
theorem isDone_of_hasYielded_run {actions : List (Action V)}
    (h : (run {} actions).reservations[r]? = some x)
    (hyielded : Consumer.hasYielded x.consumer.handle = true) :
    x.consumer.cell.isDone = true := by
  refine forall_run (P := fun y => Consumer.hasYielded y.consumer.handle = true →
    y.consumer.cell.isDone = true) (fun _ _ _ hnew => ?_)
    (fun _ _ _ y y' hchange hy => ?_) h hyielded
  · cases hnew with
    | reserve => nofun
    | @await _ _ access => cases access <;> nofun
  · cases hchange with
    | handle hc => exact hc.isDone_of_hasYielded hy
    | attach =>
      intro hyielded
      rw [Consumer.handle_attach] at hyielded
      rw [Cell.isDone, (Consumer.attach_spends _).isDone_eq]
      exact hy hyielded
    | refuse | lose | finish | drop => exact fun _ => Consumer.isDone_publish ..
    | launch | clear | clearDirectly | queue | letGo | abort | discard | start | advance | pause
    | engage => exact hy

/-- A channel from which something can be received was sent the outcome. -/
theorem isDone_of_isReady_channel_run {actions : List (Action V)}
    (h : (run {} actions).reservations[r]? = some x)
    (hready : x.consumer.channel.isReady = true) : x.consumer.cell.isDone = true := by
  refine forall_run (P := fun y => y.consumer.channel.isReady = true →
    y.consumer.cell.isDone = true) (fun _ _ _ hnew => ?_) (fun _ _ _ y y' hchange hy => ?_) h hready
  · cases hnew with
    | reserve => nofun
    | @await _ _ access => cases access <;> nofun
  · cases hchange with
    | handle hc =>
      intro hready
      rw [Cell.isDone, hc.spends.isDone_eq]
      exact hy (hc.isReady_channel hready)
    | attach =>
      intro hready
      rw [Cell.isDone, (Consumer.attach_spends _).isDone_eq]
      exact (Consumer.isReady_channel_attach hready).elim hy id
    | refuse | lose | finish | drop => exact fun _ => Consumer.isDone_publish ..
    | launch | clear | clearDirectly | queue | letGo | abort | discard | start | advance | pause
    | engage => exact hy

/-- A handle that would be answered now is one whose outcome is there. -/
theorem isDone_of_isReady_run {actions : List (Action V)}
    (h : (run {} actions).reservations[r]? = some x) (hready : x.consumer.isReady = true) :
    x.consumer.cell.isDone = true := by
  unfold Consumer.isReady at hready
  split at hready
  next => exact isDone_of_isReady_channel_run h hready
  next hhandle => exact isDone_of_hasYielded_run h (by rw [hhandle]; rfl)
  next hhandle => exact isDone_of_hasYielded_run h (by rw [hhandle]; rfl)
  next => exact hready
  next => exact hready
  next => exact hready
  next => exact hready
  next => cases hready

/-- What a handle has yielded is the outcome of a computation that is over. -/
theorem isOver_of_hasYielded {actions : List (Action V)}
    (h : (run {} actions).reservations[r]? = some x)
    (hyielded : Consumer.hasYielded x.consumer.handle = true) :
    x.phase.isOver = true ∧ x.outcomes ≠ [] := by
  have hsound := sound_run h
  have hdone := hsound.isDone_eq.symm.trans (isDone_of_hasYielded_run h hyielded)
  have houtcomes : x.outcomes ≠ [] := by simpa using hdone
  refine ⟨?_, houtcomes⟩
  by_contra hover
  exact houtcomes (hsound.running (Bool.eq_false_iff.mpr hover))

/-- An abort was requested exactly if the consumer gave the computation up before. -/
theorem aborted_iff_run {actions : List (Action V)}
    (h : (run {} actions).reservations[r]? = some x) :
    x.aborted = true ↔ ∃ before a after y, actions = before ++ a :: after ∧
      (run {} before).reservations[r]? = some y ∧ y.spawned = true ∧
        (run {} before).GivesUp r y a := by
  constructor
  · -- The last action is the one, or the request was there before it.
    intro haborted
    induction h using run_induction with
    | start h => cases h
    | new _ _ hnew => cases hnew <;> cases haborted
    | @act actions a _ y h hy _ ih =>
      rcases (aborted_act hy h).mp haborted with hbefore | ⟨hspawned, hgives⟩
      · obtain ⟨before, b, after, z, rfl, hz⟩ := ih hbefore
        exact ⟨before, b, after ++ [a], z, by simp, hz⟩
      · exact ⟨actions, a, [], y, rfl, hy, hspawned, hgives⟩
  · rintro ⟨before, a, after, y, rfl, hy, hspawned, hgives⟩
    -- What was requested then stays so.
    obtain ⟨y', hy', -⟩ := exists_changes_act hy a
    rw [run_append, run_cons] at h
    exact (grows_of_run hy' h).aborted_of_aborted
      ((aborted_act hy hy').mpr (.inr ⟨hspawned, hgives⟩))

/-- In the run so far, an abort of the computation of the reservation `x` of number `r` was
requested exactly if its consumer gave it up, and this is when a consumer does. -/
structure Abandonment (actions : List (Action V)) (r : ReservationId) (x : Reservation V) :
    Prop where
  /-- An abort was requested exactly if the consumer gave the computation up when there was a task
  to abort. -/
  aborted_iff : x.aborted = true ↔ ∃ before a after y, actions = before ++ a :: after ∧
    (run {} before).reservations[r]? = some y ∧ y.spawned = true ∧ (run {} before).GivesUp r y a
  /-- An action requests an abort exactly if the consumer gives the computation up by it. -/
  aborted_act : ∀ a x', ((run {} actions).act a).reservations[r]? = some x' →
    (x'.aborted = true ↔ x.aborted = true ∨ x.spawned = true ∧ (run {} actions).GivesUp r x a)
  /-- No operation gives the computation up but to cancel, to run out of time, and to drop: neither
  to block, to subscribe or to join, whether or not it uses up the handle, nor to poll. -/
  operation_spares : ∀ a, a.handle? = some r → a ≠ .cancel r → a ≠ .expire r → a ≠ .drop r →
    ¬(run {} actions).GivesUp r x a
  /-- To run out of time spares the computation if the handle of a future is handed back. -/
  join_spares : ∀ limit, x.consumer.handle = .waiting (.joining limit) →
    ¬(run {} actions).GivesUp r x (.expire r)
  /-- To drop a future or a subscription spares the computation, and so does it to drop a handle of
  which nothing was asked, or that has yielded. -/
  drop_spares : x.consumer.handle = .future ∨ (∃ live, x.consumer.handle = .subscription live) ∨
    x.consumer.handle = .reservation ∨ (∃ shape : Shape, x.consumer.handle = shape.idle) ∨
    x.consumer.handle = .mono .done ∨ x.consumer.handle = .maybe .done →
      ¬(run {} actions).GivesUp r x (.drop r)
  /-- To drop a handle that was polled and has not yielded, or that of a started stream, gives the
  computation up. -/
  drop_gives : isOffered x = true → x.consumer.handle = .mono .running ∨
    x.consumer.handle = .maybe .running ∨ x.consumer.handle = .stream .running →
      (run {} actions).GivesUp r x (.drop r)
  /-- To cancel a future gives the computation up, and so does it to dispose of a subscription that
  was made before the outcome was yielded. -/
  cancel_gives : isOffered x = true →
    x.consumer.handle = .future ∨ x.consumer.handle = .subscription true →
      (run {} actions).GivesUp r x (.cancel r)
  /-- A subscription that was made afterwards has nothing left to abort. -/
  subscription_late : x.consumer.handle = .subscription false →
    x.phase.isOver = true ∧ x.outcomes ≠ []
  /-- To run out of time otherwise gives the computation up, if there is no outcome. -/
  expire_gives : isOffered x = true → ∀ limit, x.consumer.handle = .waiting (.blocking limit) →
    x.consumer.cell.slot = .pending → (run {} actions).GivesUp r x (.expire r)
  /-- No request, and nothing else, changes an outcome that was published. -/
  late : x.outcomes ≠ [] → ∀ further, (run {} actions).LeadsTo further r fun x' =>
    x'.outcomes = x.outcomes

/-- An outcome that was published stays the only one. -/
theorem leadsTo_outcomes_eq {actions : List (Action V)}
    (h : (run {} actions).reservations[r]? = some x) (houtcomes : x.outcomes ≠ [])
    (further : List (Action V)) :
    (run {} actions).LeadsTo further r fun x' => x'.outcomes = x.outcomes := by
  have hover : x.phase.isOver = true := by
    by_contra hover
    exact houtcomes ((sound_run h).running (Bool.eq_false_iff.mpr hover))
  obtain ⟨x', hx', hgrows⟩ := exists_grows_run h further
  exact ⟨x', hx', (hgrows.eq_of_isOver hover).2⟩

/-- In every run, an abort was requested exactly if the consumer gave the computation up. -/
theorem abandonment_run {actions : List (Action V)}
    (h : (run {} actions).reservations[r]? = some x) : Abandonment actions r x where
  aborted_iff := aborted_iff_run h
  aborted_act _ _ := System.aborted_act h
  operation_spares a ha hcancel hexpire hdrop hgives := by
    cases hgives with
    | cancel => exact hcancel rfl
    | expire => exact hexpire rfl
    | drop => exact hdrop rfl
    | dropTask | step => cases ha
  join_spares limit hjoining hgives := by
    cases hgives with
    | expire _ hhandle => cases hjoining.symm.trans hhandle
  drop_spares hhandle hgives := by
    cases hgives with
    | drop _ hgives =>
      rcases hhandle with hhandle | ⟨live, hhandle⟩ | hhandle | ⟨shape, hhandle⟩ | hhandle | hhandle
      all_goals rw [hhandle] at hgives
      case inr.inr.inr.inl => cases shape <;> cases hgives
      all_goals cases hgives
  drop_gives hoffered hhandle := by
    refine .drop hoffered ?_
    rcases hhandle with hhandle | hhandle | hhandle <;> rw [hhandle] <;> rfl
  cancel_gives hoffered hhandle := by
    refine .cancel hoffered ?_
    rcases hhandle with hhandle | hhandle <;> rw [hhandle] <;> rfl
  subscription_late hhandle := isOver_of_hasYielded h (by rw [hhandle]; rfl)
  expire_gives hoffered _ hhandle hpending := .expire hoffered hhandle hpending
  late := leadsTo_outcomes_eq h

/-- A run in which a mono that was polled is dropped before its computation has come to its end. -/
def polledAndDropped : List (Action Nat) :=
  [.addPool { threadName := "worker", workers := 1 }, .borrow "scope" 0,
    .reserve 0 none "a" (.gate "door" (.finish (.value 7))), .reshape 0 .mono, .use 0 .poll,
    .testClosed 0, .spawn 0, .letGo 0, .poll 0 .thread, .drop 0]

/-- An abort is requested, because the mono gave its computation up. -/
theorem abandonment_polledAndDropped : ∃ x, (run {} polledAndDropped).reservations = [x] ∧
    x.spawned = true ∧ x.aborted = true ∧ Abandonment polledAndDropped 0 x :=
  ⟨_, rfl, rfl, rfl, abandonment_run rfl⟩

end System

end Deferral
