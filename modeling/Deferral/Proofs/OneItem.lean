import Deferral.Proofs.System.Flow
import Deferral.Proofs.System.Waiting
import Deferral.Session.Report

/-!
# One-item streams

A mono and a stream yield the outcome as their one item, and then they have ended. This is so
however they are polled, by a caller that polls now and then or blocks, or by a computation; and
whatever becomes of the computation and its scope.

Main statements:
* `oneItem_run`: what a caller can rely on with a one-item stream, after any run.
-/

namespace Deferral

variable {V : Type}

open Deferral.System

/-- What comes of blocking for the next item or the end while others act: the caller does what is in
`further`, and the reservation `r` is `x'` then. -/
structure NextBlocked (r : ReservationId) (actions middle further : List (Action V))
    (x' : Reservation V) : Prop where
  /-- It is a run. -/
  run_eq : ((run {} actions).pollOut r fun w => w.run middle).1 = run {} (actions ++ further)
  /-- The reservation is there. -/
  getElem?_eq : (run {} (actions ++ further)).reservations[r]? = some x'
  /-- In this run the handle is polled in vain, and then the answer to a poll is what the caller
  gets. -/
  polls_eq : ∃ n, polls r (run {} actions) further = List.replicate n none ++
    [((run {} actions).pollOut r fun w => w.run middle).2]
  /-- He gets the outcome, if it comes at all, the first time. -/
  yields : items (polls r {} actions) = [] → ((run {} actions).pollOut r fun w => w.run middle).2 =
    x'.outcomes.head?.map fun o => .item (some o)
  /-- Once the item was yielded, he gets the end. -/
  ends : items (polls r {} actions) ≠ [] →
    ((run {} actions).pollOut r fun w => w.run middle).2 = some (.item none)

/-- The reservation `r`, which is `x` after `actions`, yields one item when it is made a mono or a
stream. -/
structure OneItem (r : ReservationId) (actions : List (Action V)) (x : Reservation V) : Prop where
  /-- What is polled is answered with nothing for a while, then at most once with an item, which is
  the outcome, and only then with the end. -/
  sequence : (∃ n, polls r {} actions = List.replicate n none) ∨
    ∃ n m o, x.outcomes = [o] ∧ polls r {} actions =
      List.replicate n none ++ some (.item (some o)) :: List.replicate m (some (.item none))
  /-- The first poll starts the computation, and then the handle is one to be polled. -/
  start : x.consumer.handle = .mono .idle ∨ x.consumer.handle = .stream .idle → isOffered x = true →
    ∃ x', (run {} (actions ++ .use r .poll :: launchActions r)).reservations[r]? = some x' ∧
      isOffered x' = true ∧ x'.consumer.handle.flows = true
  /-- A caller is answered by polling the handle. -/
  asks : x.consumer.handle.flows = true → isOffered x = true → ∀ k,
    (run {} actions).polled r (.poll r k) = [(run {} actions).pollAnswer r k]
  /-- Until the item was yielded, a poll is answered with it if the outcome is there. -/
  yields : items (polls r {} actions) = [] → ∀ a answer, answer ∈ (run {} actions).polled r a →
    answer = x.outcomes.head?.map fun o => .item (some o)
  /-- Once the item was yielded, a poll is answered with the end. -/
  ends : items (polls r {} actions) ≠ [] → ∀ a answer, answer ∈ (run {} actions).polled r a →
    answer = some (.item none)
  /-- The number of items that a mono announces is one as long as it has yielded none, and it is
  terminated if that number is zero. -/
  announces : ∀ stage, x.consumer.handle = .mono stage →
    stage.remaining + (items (polls r {} actions)).length = 1 ∧ (stage = .done ↔ stage.remaining = 0)
  /-- If it is polled to its end, a mono yields as many items as it has announced,
  and never more. -/
  remains : ∀ stage, x.consumer.handle = .mono stage → ∀ further,
    (items (polls r (run {} actions) further)).length ≤ stage.remaining ∧
      (some (.item none) ∈ polls r (run {} actions) further →
        (items (polls r (run {} actions) further)).length = stage.remaining)
  /-- A stream is sent one item at most, and sending fails only because the stream is gone. -/
  sends : x.consumer.sendings.length ≤ 1 ∧ ∀ sending ∈ x.consumer.sendings, sending = .sent ∨
    sending = .refused ∧ x.consumer.channel.receiving = false ∧
      ∀ stage, x.consumer.handle ≠ .stream stage
  /-- Once the launch has returned, a stream that is there was sent all that is published. -/
  delivers : x.consumer.handle = .stream .running → x.isSettled = true →
    x.consumer.sendings = x.outcomes.map fun _ => .sent
  /-- To block until the next item or the end is there is to poll a few times, whatever others do
  meanwhile. -/
  blocks : x.consumer.handle.flows = true → isOffered x = true →
    ∀ middle : List (Action V), (∀ a ∈ middle, a.handle? ≠ some r) →
      ∃ further x', NextBlocked r actions middle further x'

namespace System

variable {actions : List (Action V)} {r : ReservationId} {x : Reservation V}

/-- The number of items that a mono announces is one less than what it has yielded. -/
theorem Flow.remaining_eq {l : List (Option (Delivery V))} (h : Flow l x) (haligned : x.Aligned)
    (hsound : x.Sound) {stage : Stage} (hhandle : x.consumer.handle = .mono stage) :
    stage.remaining + (items l).length = 1 := by
  cases h with
  | waiting n hpolls howes =>
    rw [hpolls, items_waiting]
    cases stage with
    | idle | running => rfl
    | done =>
      -- A mono that is done owes nothing.
      obtain ⟨callback?, howes⟩ := howes (by rw [hhandle]; rfl)
      have hserves := howes.serves
      rw [hhandle] at hserves
      rcases callback? with _ | _ | _ <;> cases hserves
  | yielded n m o hpolls hone hspent =>
    rw [hpolls, items_yielded]
    cases stage with
    | idle =>
      -- A mono that was not started has nothing to yield.
      have hphase := haligned.captured_iff.mpr (by rw [hhandle]; rfl)
      cases hone.symm.trans (hsound.running (by rw [hphase]; rfl))
    | running =>
      rcases hspent (by rw [hhandle]; rfl) with ⟨-, hdone⟩ | ⟨-, hstream⟩
      · cases hhandle.symm.trans hdone
      · cases hhandle.symm.trans hstream
    | done => rfl

/-- Once the launch has returned, a stream that is there was sent all that is published. -/
theorem Flow.sendings_eq {l : List (Option (Delivery V))} (h : Flow l x) (hsound : x.Sound)
    (hforwards : x.consumer.Forwards) (hattaching : x.consumer.attaching = none)
    (hstream : x.consumer.handle = .stream .running) :
    x.consumer.sendings = x.outcomes.map fun _ => .sent := by
  cases h with
  | waiting n hpolls howes =>
    obtain ⟨callback?, howes⟩ := howes (by rw [hstream]; rfl)
    rw [howes.sendings_eq hforwards hattaching hstream]
    rcases hone : x.outcomes with _ | ⟨o, os⟩
    · rfl
    · have hmem : o ∈ x.outcomes := hone ▸ List.mem_cons_self
      obtain rfl : os = [] := by simpa [hone] using (hsound.outcomes_of_mem hmem).1
      rfl
  | yielded n m o hpolls hone hspent =>
    rw [hone]
    rcases hspent (by rw [hstream]; rfl) with ⟨-, hdone⟩ | ⟨-, -, -, -, hsendings⟩
    · cases hstream.symm.trans hdone
    · exact hsendings

/-- What is not about the handle of a caller does not poll it. -/
theorem polls_of_others {further : List (Action V)}
    (hx : (run {} actions).reservations[r]? = some x)
    (hparent : x.parent = none) (hothers : ∀ a ∈ further, a.handle? ≠ some r) :
    polls r (run {} actions) further = [] := by
  induction further generalizing actions x with
  | nil => rfl
  | cons a further ih =>
    have hby : ¬(run {} actions).Handles r a := fun hby =>
      hothers a List.mem_cons_self (hby.caller_of_parent_eq_none hx hparent).1
    obtain ⟨y, hy, hchanges⟩ := exists_changes_act hx a
    rw [← run_concat] at hy
    rw [polls, polled_of_not_handles hby, List.nil_append, ← run_concat]
    exact ih hy ((Changes.grows hchanges).parent_eq.trans hparent)
      fun b hb => hothers b (List.mem_cons_of_mem _ hb)

/-- A caller is answered by polling the handle. -/
theorem polled_poll (hx : (run {} actions).reservations[r]? = some x)
    (hflows : x.consumer.handle.flows = true) (hoffered : isOffered x = true) (k : Waker) :
    (run {} actions).polled r (.poll r k) = [(run {} actions).pollAnswer r k] := by
  have hk : (run {} actions).poller? r (.poll r k) = some k := by simp [poller?, hx, hoffered]
  rw [polled_of_poller? hx hflows hk, pollAnswer, hx, Option.bind_some, if_pos hoffered]

/-- A caller that polls a one-item stream which owes the outcome waits for it. -/
theorem awaits_of_owes (hx : (run {} actions).reservations[r]? = some x)
    (hflows : x.consumer.handle.flows = true) (hoffered : isOffered x = true)
    {callback? : Option Callback} (howes : x.consumer.Owes callback? x.outcomes.head?) :
    Awaits r x.consumer.handle x.outcomes.head? (run {} actions) := by
  have hparent : x.parent = none := by
    simp only [isOffered, Bool.and_eq_true, Option.isNone_iff_eq_none] at hoffered
    exact hoffered.1
  have hsettled : x.isSettled = true := isSettled_of_isOffered hoffered fun hphase => by
    have hcold := (aligned_run hx).captured_iff.mp hphase
    cases (Handle.isCold_of_flows hflows).symm.trans hcold
  refine ⟨x, hx, hparent, hsettled, rfl, rfl, callback?, ?_, howes⟩
  rintro rfl
  cases (Handle.serves_report_of_flows hflows).symm.trans howes.serves

/-- What others do, and the scheduler after them, is a run that does not poll the
handle of a caller. -/
theorem exists_others_quiesce {w : System V} {middle : List (Action V)} (hw : Twin r w w)
    (hmiddle : ∀ a ∈ middle, a.handle? ≠ some r) :
    ∃ schedule : List (Action V), (∀ a ∈ schedule, a.handle? ≠ some r) ∧
      (((w.quiesce none).run middle).quiesce none) = w.run schedule := by
  obtain ⟨before, hbefore, hquiesce, -⟩ := hw.quiesce none
  have hothers {l : List (Action V)} (hl : ∀ a ∈ l, a.handle? = none) :
      ∀ a ∈ l, a.handle? ≠ some r := fun a ha => by
    rw [hl a ha]
    nofun
  -- What happens in the middle leads to a system that comes from a run as well.
  have hmid : Twin r (w.run (before ++ middle)) (w.run (before ++ middle)) := by
    obtain ⟨⟨actions, rfl⟩, -, -, howned⟩ := hw
    have hrun : (run {} actions).run (before ++ middle) = run {} (actions ++ (before ++ middle)) :=
      (run_append ..).symm
    exact ⟨⟨_, hrun⟩, ⟨_, hrun⟩, .refl r _, howned.run _⟩
  obtain ⟨after, hafter, hlast, -⟩ := hmid.quiesce none
  refine ⟨before ++ middle ++ after, fun a ha => ?_, ?_⟩
  · rcases List.mem_append.mp ha with ha | ha
    · exact (List.mem_append.mp ha).elim (hothers hbefore a) (hmiddle a)
    · exact hothers hafter a ha
  · rw [hquiesce, ← run_append, hlast, run_append _ (before ++ middle)]

/-- A caller that blocks is answered at once, if the first poll is answered. -/
theorem nextBlocked_of_answered {d : Delivery V} (hx : (run {} actions).reservations[r]? = some x)
    (hflows : x.consumer.handle.flows = true) (hoffered : isOffered x = true)
    (hfirst : (run {} actions).pollAnswer r .thread = some d) (middle : List (Action V)) :
    NextBlocked r actions middle [.poll r .thread] (x.operate (.poll r .thread)) := by
  have hdirect : (.poll r .thread : Action V) ≠ .runDirectly r := nofun
  have hpollOut : (run {} actions).pollOut r (fun w => w.run middle) =
      ((run {} actions).act (.poll r .thread), some d) := by
    rw [pollOut, hfirst]
  have hanswer : (x.consumer.poll .thread).2 = some d := by
    rwa [pollAnswer, hx, Option.bind_some, if_pos hoffered] at hfirst
  obtain ⟨hyields, hends⟩ := (flow_run hx).answer (forwards_run hx)
    (attaching_eq_none_of_flows hx hoffered hflows) hflows .thread
  constructor
  · rw [hpollOut, run_concat]
  · rw [run_concat]
    exact getElem?_act_of_offered rfl hdirect hx hoffered
  · -- No poll before this one was left unanswered.
    refine ⟨0, ?_⟩
    rw [polls_singleton, polled_poll hx hflows hoffered, hfirst, hpollOut]
    rfl
  · intro hitems
    rw [hpollOut, Reservation.outcomes_operate, ← hyields hitems, hanswer]
  · intro hitems
    rw [hpollOut, ← hends hitems, hanswer]

/-- Until the item is yielded a poll is answered with nothing only as long as the
outcome is owed. -/
theorem awaits_of_pending (hx : (run {} actions).reservations[r]? = some x)
    (hflows : x.consumer.handle.flows = true) (hoffered : isOffered x = true)
    (hfirst : (run {} actions).pollAnswer r .thread = none) :
    items (polls r {} actions) = [] ∧ x.consumer.handle.isPolled = true ∧
      Awaits r x.consumer.handle none (run {} actions) := by
  rw [pollAnswer, hx, Option.bind_some, if_pos hoffered] at hfirst
  have hforwards := forwards_run hx
  have hattaching := attaching_eq_none_of_flows hx hoffered hflows
  obtain ⟨hyields, hends⟩ := (flow_run hx).answer hforwards hattaching hflows .thread
  have hitems : items (polls r {} actions) = [] := by
    by_contra hne
    cases (hends hne).symm.trans hfirst
  have hnone : x.outcomes.head? = none := by
    rw [hyields hitems] at hfirst
    exact Option.map_eq_none_iff.mp hfirst
  -- Nothing was yielded so far, so the flow is still waiting.
  cases flow_run hx with
  | waiting n hpolls howes =>
    obtain ⟨callback?, howes⟩ := howes hflows
    have hw := awaits_of_owes hx hflows hoffered howes
    rw [hnone] at hw
    exact ⟨hitems, howes.isPolled_of_flows hflows, hw⟩
  | yielded n m o hpolls =>
    rw [hpolls, Flow.items_yielded] at hitems
    cases hitems

/-- A caller that blocks while the outcome is owed polls, waits while others act,
and polls again. -/
theorem nextBlocked_of_pending {middle : List (Action V)}
    (hx : (run {} actions).reservations[r]? = some x) (hflows : x.consumer.handle.flows = true)
    (hoffered : isOffered x = true) (hfirst : (run {} actions).pollAnswer r .thread = none)
    (hmiddle : ∀ a ∈ middle, a.handle? ≠ some r) :
    ∃ further x', NextBlocked r actions middle further x' := by
  obtain ⟨hitems, hpolled, hw⟩ := awaits_of_pending hx hflows hoffered hfirst
  -- After the first poll the caller waits while others act.
  obtain ⟨-, hw₁⟩ := hw.poll hpolled .thread
  rw [← run_concat] at hw₁
  obtain ⟨schedule, hothers, hquiesce⟩ := exists_others_quiesce
    (w := run {} (actions ++ [.poll r .thread])) ⟨⟨_, rfl⟩, ⟨_, rfl⟩, .refl r _, hw₁.owned⟩ hmiddle
  obtain ⟨o?, hw₂, -⟩ := hw₁.run hothers
  rw [← run_append] at hw₂
  have hpollOut : (run {} actions).pollOut r (fun w => w.run middle) =
      (run {} (actions ++ [.poll r .thread] ++ schedule ++ [.poll r .thread]),
        (run {} (actions ++ [.poll r .thread] ++ schedule)).pollAnswer r .thread) := by
    rw [pollOut, hfirst]
    dsimp only
    rw [← run_concat, hquiesce, ← run_append, ← run_concat]
  have hlast := hw₂.pollAnswer hpolled .thread
  -- Then he polls the same handle again.
  obtain ⟨z, hz, hawaited₁⟩ := hw₁
  obtain ⟨y, hy, hawaited₂⟩ := hw₂
  have hflows₂ : y.consumer.handle.flows = true := hawaited₂.handle_eq ▸ hflows
  refine ⟨.poll r .thread :: schedule ++ [.poll r .thread], y.operate (.poll r .thread), ?_⟩
  constructor
  · rw [hpollOut]
    simp
  · rw [← getElem?_act_of_offered rfl (by nofun) hy hawaited₂.isOffered]
    simp
  · refine ⟨1, ?_⟩
    rw [hpollOut, polls_append, polls, polled_poll hx hflows hoffered, hfirst,
      ← run_concat, polls_of_others hz hawaited₁.parent_eq hothers, run_cons, ← run_concat,
      ← run_append, polls_singleton,
      polled_poll hy hflows₂ hawaited₂.isOffered]
    rfl
  · intro _
    rw [hpollOut, hlast, Reservation.outcomes_operate, hawaited₂.outcomes_eq]
    cases o? with
    | none => rfl
    | some o => exact congrArg some (Consumer.deliver_of_flows hflows o)
  · intro hne
    exact absurd hitems hne

end System

/-- However a one-item stream is polled, and whatever becomes of its computation and scope, it
yields the outcome once and then ends. -/
theorem oneItem_run {actions : List (Action V)} {r : ReservationId} {x : Reservation V}
    (hx : (run {} actions).reservations[r]? = some x) : OneItem r actions x := by
  have hflow := flow_run hx
  have hforwards := forwards_run hx
  have hsound := sound_run hx
  constructor
  case sequence =>
    cases hflow with
    | waiting n hpolls => exact .inl ⟨n, hpolls⟩
    | yielded n m o hpolls hone => exact .inr ⟨n, m, o, hone, hpolls⟩
  case start =>
    intro hidle hoffered
    -- The first poll of either kind of stream launches, and leaves a stream that flows.
    obtain ⟨h, hlaunch, hhandle, hflows⟩ : ∃ h, (x.consumer.begin .poll).launch = true ∧
        (x.consumer.begin .poll).consumer.handle = h ∧ h.flows = true := by
      rcases hidle with hidle | hidle
      · exact ⟨.mono .running, by simp [Consumer.begin, hidle], by simp [Consumer.begin, hidle], rfl⟩
      · exact ⟨.stream .running, by simp [Consumer.begin, hidle], by simp [Consumer.begin, hidle], rfl⟩
    obtain ⟨o?, x', hx', hawaited⟩ := awaits_of_starts hx
      (Action.starts_iff.mpr ⟨hoffered, hlaunch⟩) hhandle (Handle.serves_report_of_flows hflows)
    refine ⟨x', ?_, hawaited.isOffered, hawaited.handle_eq ▸ hflows⟩
    rw [run_append, run_cons]
    exact hx'
  case asks =>
    intro hflows hoffered k
    exact polled_poll hx hflows hoffered k
  case yields =>
    intro hitems a answer hanswer
    obtain ⟨k, hflows, hk, rfl⟩ := exists_poller?_of_mem_polled hx hanswer
    have hattaching := attaching_eq_none_of_poller? hx hflows hk
    exact (hflow.answer hforwards hattaching hflows k).1 hitems
  case ends =>
    intro hitems a answer hanswer
    obtain ⟨k, hflows, hk, rfl⟩ := exists_poller?_of_mem_polled hx hanswer
    have hattaching := attaching_eq_none_of_poller? hx hflows hk
    exact (hflow.answer hforwards hattaching hflows k).2 hitems
  case announces =>
    intro stage hhandle
    refine ⟨hflow.remaining_eq (aligned_run hx) hsound hhandle, ?_⟩
    cases stage <;> simp [Stage.remaining]
  case remains =>
    intro stage hhandle further
    have hremaining := hflow.remaining_eq (aligned_run hx) hsound hhandle
    -- Over the longer run one item is yielded at most, and one exactly once the stream has ended.
    obtain ⟨x', hx', -⟩ := exists_grows_run hx further
    rw [← run_append] at hx'
    have hflow' := flow_run hx'
    have hle := hflow'.length_items_le
    rw [polls_append, items_append, List.length_append] at hle
    refine ⟨by omega, fun hended => ?_⟩
    have hone := hflow'.length_items_of_ended
      (by rw [polls_append]; exact List.mem_append_right _ hended)
    rw [polls_append, items_append, List.length_append] at hone
    omega
  case sends =>
    cases hforwards.sends with
    | before hsendings =>
      rw [hsendings]
      exact ⟨Nat.zero_le 1, List.forall_mem_nil _⟩
    | after sending hsendings hroom =>
      rw [hsendings]
      refine ⟨Nat.le_refl 1, fun sending' hmem => ?_⟩
      obtain rfl := List.mem_singleton.mp hmem
      exact hroom.imp_right fun hgone => ⟨hgone.1, hgone.2, hforwards.gone hgone.2⟩
  case delivers =>
    intro hstream hsettled
    exact hflow.sendings_eq hsound hforwards (attaching_eq_none_of_isSettled hsettled).2 hstream
  case blocks =>
    intro hflows hoffered middle hmiddle
    rcases hfirst : (run {} actions).pollAnswer r .thread with _ | d
    · exact nextBlocked_of_pending hx hflows hoffered hfirst hmiddle
    · exact ⟨_, _, nextBlocked_of_answered hx hflows hoffered hfirst middle⟩

/-- A stream that is started by a poll when its computation has ended before the callback is
registered, and is polled twice. -/
def streamPolled : List (Action Nat) :=
  [.addPool { threadName := "worker", workers := 1 }, .borrow "scope" 0,
    .reserve 0 none "a" (.finish (.value 7)), .reshape 0 .stream, .use 0 .poll, .testClosed 0, .spawn 0,
    .letGo 0, .resume 0, .step 0, .attach 0, .poll 0 (.named "first"), .poll 0 (.named "second")]

/-- A stream whose outcome was there before its callback yields that, and then the end. -/
theorem oneItem_run_streamPolled :
    ∃ x, (run {} streamPolled).reservations = [x] ∧ x.consumer.sendings = [.sent] ∧
      polls 0 {} streamPolled = [some (.item (some (.ok 7))), some (.item none)] ∧
      OneItem 0 streamPolled x := by
  refine ⟨_, rfl, rfl, rfl, ?_⟩
  exact oneItem_run rfl

end Deferral
