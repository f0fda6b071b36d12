import Deferral.Proofs.System.Isolation
import Deferral.Proofs.System.Progress
import Deferral.Proofs.System.Waiting

/-!
# Reservations that were left alone

A reservation refers to its scope until its launch is over, but its computation does not. So when
nobody else refers to the scope, its pool is shut down while the computation is still there, and the
computation is dropped as soon as it is suspended. `Forsaken` tells that this was so at some point
of a run. Nothing but that keeps the caller from being handed the outcome that the computation comes
to by itself, as long as nobody shuts the scope down or asks for an abort.

Main statements:
* `forsaken_of_cancelled`: a computation is cancelled only if it was forsaken.
* `outcomes_of_forsaken`: a computation that was forsaken comes to no other outcome.
* `retention_run`: what the caller is handed, and that it is handed to him.
-/

namespace Deferral

variable {S V : Type}

/-! ## How computations end -/

namespace Computation

/-- How a computation ends when all its steps are taken. -/
def ending : Computation S V → Ending V
  | finish e => e
  | gate _ rest | mark _ rest | yield rest | sleep _ rest | thread rest | shutdown _ rest
  | dropScope _ rest | await _ _ _ rest => rest.ending

@[simp]
theorem ending_tail (c : Computation S V) : c.tail.ending = c.ending := by
  cases c <;> rfl

/-- What remains after some steps ends as the whole does. -/
@[simp]
theorem ending_after (n : Nat) (c : Computation S V) : (c.after n).ending = c.ending := by
  induction n with
  | zero => rfl
  | succ n ih => rw [after, ending_tail, ih]

end Computation

/-- A computation that was carried to its end has ended as it is bound to. -/
theorem Reservation.RanTo.eq_ending {x : Reservation V} {e : Ending V} (h : x.RanTo e) :
    e = x.computation.ending := by
  have hending := Computation.ending_after x.position x.computation
  rw [h.after_position] at hending
  exact hending

namespace System

variable {w : System V} {a : Action V} {r : ReservationId} {x x' : Reservation V}
  {early late actions further : List (Action V)} {u : Use} {scope : Scope}

/-! ## Cancellation -/

/-- At some point of the run the computation of `r` was suspended and nobody
referred to its scope. -/
def Forsaken (r : ReservationId) (w : System V) (actions : List (Action V)) : Prop :=
  ∃ before after x, actions = before ++ after ∧ (w.run before).reservations[r]? = some x ∧
    x.phase.isSuspended = true ∧ x.scope ∉ (w.run before).references

/-- What was forsaken stays so when the run goes on. -/
theorem Forsaken.append (h : Forsaken r w actions) (further : List (Action V)) :
    Forsaken r w (actions ++ further) := by
  obtain ⟨before, after, x, rfl, hx⟩ := h
  exact ⟨before, after ++ further, x, by rw [List.append_assoc], hx⟩

/-- A computation is cancelled by an action only if its launch was not over or it was suspended. -/
theorem Changes.cancelled_cause (h : w.Changes r a x x') (hbefore : .error .cancelled ∉ x.outcomes)
    (hcancelled : .error .cancelled ∈ x'.outcomes) :
    x.phase.isLaunched = false ∨ x.phase.isSuspended = true := by
  by_contra hneither
  obtain ⟨hlaunched, hsuspended⟩ := not_or.mp hneither
  -- What has a thread may suspend in this action, but then it is not dropped in the same one.
  have hkept := h.preserve (P := fun y => y.phase.isLaunched = true ∧
    .error .cancelled ∉ y.outcomes ∧ (y.phase.isSuspended = true → a = .step r))
    (fun y y' hchange hy => ?_)
    ⟨eq_true_of_ne_false hlaunched, hbefore, fun h => absurd h hsuspended⟩
  · exact hkept.2.1 hcancelled
  · obtain ⟨hlaunched, hbefore, hstep⟩ := hy
    cases hchange with
    | handle | attach | letGo | abort => exact ⟨hlaunched, hbefore, hstep⟩
    | launch hphase | refuse _ _ hphase | clear hphase | clearDirectly hphase | queue hphase
    | lose hphase | discard hphase =>
      rw [hphase] at hlaunched
      cases hlaunched
    | start | advance | engage => exact ⟨rfl, hbefore, nofun⟩
    | pause _ _ _ _ ha => exact ⟨rfl, hbefore, fun _ => ha⟩
    | @finish e =>
      refine ⟨rfl, fun hmem => ?_, nofun⟩
      rcases List.mem_append.mp hmem with hmem | hmem
      · exact hbefore hmem
      · exact e.outcome_ne.2 (List.mem_singleton.mp hmem).symm
    | drop ha hphase => cases ha.symm.trans (hstep hphase)

/-- In every run, the pool of an open scope that had one is down exactly if nobody refers to the
scope. -/
theorem isDown_iff_notMem_references {s : ScopeId} (hscope : (run {} early).scopes[s]? = some scope)
    (hown : scope.owns = true) (hopen : ((run {} early).run further).isClosed s = false) :
    ((run {} early).run further).IsDown s ↔ s ∉ ((run {} early).run further).references := by
  obtain ⟨scope', hscope', hages⟩ := (ages_run (run {} early) further).exists_scope hscope
  rw [isClosed, hscope', Option.any_some] at hopen
  have hbefore : scope.closed = false :=
    Bool.eq_false_iff.mpr fun hclosed => by cases hopen.symm.trans (hages.closed hclosed)
  obtain ⟨hcounted, -⟩ := counted_run hscope hbefore hscope' rfl
  have hstanding := standing_run hscope hbefore hscope'
  rw [hown] at hstanding
  -- No shutdown of an open scope is under way, so the references are those that are held.
  have hcalm : ¬scope'.closing.isSome = true := fun hclosing => by
    cases hopen.symm.trans (hcounted.closed_of_closing hclosing)
  have hreferences := hcounted.references_eq
  rw [if_neg hcalm, Nat.add_zero] at hreferences
  rw [isDown_iff_of_standing hscope' hstanding, hopen, hreferences, List.count_eq_zero]
  simp

/-- In every run, nobody refers to an open scope that has lost its pool. -/
theorem notMem_references_of_dead {s : ScopeId} (hscope : (run {} early).scopes[s]? = some scope)
    (hown : scope.owns = true) (hopen : ((run {} early).run further).isClosed s = false)
    (hdead : ((run {} early).run further).poolAlive s = false) :
    s ∉ ((run {} early).run further).references := by
  refine (isDown_iff_notMem_references hscope hown hopen).mp ?_
  obtain ⟨scope', hscope', -⟩ := (ages_run (run {} early) further).exists_scope hscope
  rw [← run_append] at hdead hscope' ⊢
  exact (valid_run _).isDown_of_poolAlive_eq_false (List.getElem?_eq_some_iff.mp hscope').1 hdead

/-- In every run, a reservation whose launch is not over refers to its scope. -/
theorem mem_references_of_not_isLaunched (hx : (run {} actions).reservations[r]? = some x)
    (hphase : x.phase.isLaunched = false) : x.scope ∈ (run {} actions).references := by
  refine List.mem_append_right _ (List.mem_flatMap.mpr ⟨x, List.mem_of_getElem? hx, ?_⟩)
  rw [Reservation.references, if_pos ((accounts_run hx).unlaunched hphase)]
  exact List.mem_append_left _ (List.mem_singleton_self _)

/-- A scope that is open was open before. -/
theorem isClosed_eq_false_of_run {s : ScopeId} (hopen : (w.run actions).isClosed s = false) :
    w.isClosed s = false := by
  by_contra hclosed
  cases hopen.symm.trans (isClosed_run (eq_true_of_ne_false hclosed) actions)

/-- In every run, a computation on an open scope that was not aborted is cancelled only if it was
forsaken. -/
theorem forsaken_of_cancelled (hx : (run {} early).reservations[r]? = some x)
    (hscope : (run {} early).scopes[x.scope]? = some scope) (hown : scope.owns = true)
    (hbefore : .error .cancelled ∉ x.outcomes)
    (hx' : ((run {} early).run further).reservations[r]? = some x')
    (hopen : ((run {} early).run further).isClosed x.scope = false) (haborted : x'.aborted = false)
    (hcancelled : .error .cancelled ∈ x'.outcomes) : Forsaken r (run {} early) further := by
  induction hx' using run_induction_from hx with
  | start => exact absurd hcancelled hbefore
  | @act further a y _ _ hy hgrows hchanges ih =>
    rw [run_append] at hopen
    have hopen' := isClosed_eq_false_of_run hopen
    have hspared := (Changes.grows hchanges).aborted_eq_false haborted
    by_cases hearlier : .error .cancelled ∈ y.outcomes
    · exact (ih hopen' hspared hearlier).append [a]
    · -- The last action has cancelled it, so the pool is down: no abort, no shutdown.
      have hdead : ((run {} early).run further).poolAlive x.scope = false := by
        rcases (Changes.accounted hchanges).cancelled hcancelled with hold | haborted' | hdead
        · exact absurd hold hearlier
        · cases haborted.symm.trans haborted'
        · rwa [(Changes.grows hchanges).scope_eq, hgrows.scope_eq] at hdead
      have hnobody := notMem_references_of_dead hscope hown hopen' hdead
      rcases Changes.cancelled_cause hchanges hearlier hcancelled with hphase | hphase
      · rw [← run_append] at hy hnobody
        exact absurd (hgrows.scope_eq ▸ mem_references_of_not_isLaunched hy hphase) hnobody
      · exact ⟨further, [a], y, rfl, hy, hphase, hgrows.scope_eq ▸ hnobody⟩

/-- In every run, what is published for a computation that was forsaken is that it was cancelled, as
long as its scope is open. -/
theorem outcomes_of_forsaken (hx : (run {} early).reservations[r]? = some x)
    (hscope : (run {} early).scopes[x.scope]? = some scope) (hown : scope.owns = true)
    (hx' : ((run {} early).run further).reservations[r]? = some x')
    (hopen : ((run {} early).run further).isClosed x.scope = false)
    (hforsaken : Forsaken r (run {} early) further) {o : Outcome V} (ho : o ∈ x'.outcomes) :
    o = .error .cancelled := by
  obtain ⟨before, after, y, rfl, hy, hsuspended, hnobody⟩ := hforsaken
  have hgrows := grows_of_run hx hy
  rw [run_append] at hx' hopen
  have hopen' := isClosed_eq_false_of_run hopen
  have hdown : ((run {} early).run before).IsDown y.scope := by
    rw [hgrows.scope_eq] at hnobody ⊢
    exact (isDown_iff_notMem_references hscope hown hopen').mpr hnobody
  rw [← run_append {} early before] at hy hdown hx' hopen
  obtain ⟨x'', hx'', hended⟩ := phase_ne_ended_of_isDown hy hdown hsuspended after
  obtain rfl := Option.some.inj (hx'.symm.trans hx'')
  have hgrows' := grows_of_run hy hx'
  rw [← run_append] at hx' hopen
  -- It did not come to its end, and was not refused, since the scope is open.
  obtain ⟨-, ⟨e, hran, -⟩ | ⟨hrefused, -⟩ | ⟨-, hcancelled⟩⟩ := (sound_run hx').outcomes_of_mem ho
  · exact absurd hran.phase_eq hended
  · rw [← hgrows.scope_eq, ← hgrows'.scope_eq] at hopen
    exact absurd hrefused (not_refused_of_open hx' hopen)
  · exact hcancelled

/-- In every run, what is published for a computation that was not forsaken is the outcome that it
comes to by itself, as long as its scope is open and no abort was requested. -/
theorem outcomes_of_not_forsaken (hx : (run {} early).reservations[r]? = some x)
    (hscope : (run {} early).scopes[x.scope]? = some scope) (hown : scope.owns = true)
    (hbefore : .error .cancelled ∉ x.outcomes)
    (hx' : ((run {} early).run further).reservations[r]? = some x')
    (hopen : ((run {} early).run further).isClosed x.scope = false) (haborted : x'.aborted = false)
    (hforsaken : ¬Forsaken r (run {} early) further) {o : Outcome V} (ho : o ∈ x'.outcomes) :
    o = x.computation.ending.outcome := by
  have hgrows := grows_of_run hx hx'
  have hrun := hx'
  rw [← run_append] at hx'
  obtain ⟨-, ⟨e, hran, rfl⟩ | ⟨hrefused, -⟩ | ⟨-, rfl⟩⟩ := (sound_run hx').outcomes_of_mem ho
  · rw [hran.eq_ending, hgrows.computation_eq]
  · rw [← run_append, ← hgrows.scope_eq] at hopen
    exact absurd hrefused (not_refused_of_open hx' hopen)
  · exact absurd (forsaken_of_cancelled hx hscope hown hbefore hrun hopen haborted ho) hforsaken

/-! ## What the caller is handed -/

/-- At the end of the run the caller of the reservation `r`, which is `x`, was handed the outcome
`o`, or would be handed it when he looks, or nothing was published yet. -/
structure Yields (r : ReservationId) (actions : List (Action V)) (x : Reservation V) (o : Outcome V) :
    Prop where
  /-- Nothing else is published. -/
  only : ∀ o' ∈ x.outcomes, o' = o
  /-- The first that he was handed is this outcome, in the form that belongs to the handle. -/
  handed : ∀ h d, (received r {} actions).head? = some (h, d) → d = h.deliver o
  /-- If he was handed nothing and blocks, he is answered with it once it is published. -/
  fetch : received r {} actions = [] → x.outcomes ≠ [] → isOffered x = true →
    ∀ purpose, x.consumer.handle = .waiting purpose →
      (run {} actions).fetchAnswer r = some (Consumer.Waiting.deliver purpose o)
  /-- If he was handed nothing and polls, he is answered with it once it is published. -/
  poll : received r {} actions = [] → x.outcomes ≠ [] → isOffered x = true →
    x.consumer.handle.isPolled = true →
      ∀ k, (run {} actions).pollAnswer r k = some (x.consumer.handle.deliver o)

/-- A handle that is polled is none whose outcome goes to a callback of the caller. -/
theorem Handle.serves_report_of_isPolled {h : Handle} (hpolled : h.isPolled = true) :
    h.serves (some .report) = false := by
  unfold Handle.isPolled at hpolled
  split at hpolled <;> first | rfl | cases hpolled

/-- A caller that is owed the only outcome that can be published is handed it. -/
theorem yields_of_receipt {given : Prop} {o : Outcome V}
    (hx : (run {} actions).reservations[r]? = some x)
    (hparent : x.parent = none) (hphase : x.phase ≠ .captured)
    (hreceipt : Receipt given (received r {} actions) x) (honly : ∀ o' ∈ x.outcomes, o' = o) :
    Yields r actions x o := by
  have hhead {o' : Outcome V} (ho' : x.outcomes.head? = some o') : o' = o :=
    honly o' (List.mem_of_mem_head? ho')
  have hpublished (houtcomes : x.outcomes ≠ []) : x.outcomes.head? = some o := by
    obtain ⟨o', rest, hcons⟩ := List.exists_cons_of_ne_nil houtcomes
    have ho' : x.outcomes.head? = some o' := by rw [hcons]; rfl
    rw [ho', hhead ho']
  -- As long as nothing was handed out, a handle that calls nobody back waits for the outcome.
  have hawaits (hnil : received r {} actions = []) (hoffered : isOffered x = true)
      (hserves : x.consumer.handle.serves (some .report) = false) :
      Awaits r x.consumer.handle x.outcomes.head? (run {} actions) := by
    rcases hreceipt with ⟨howes, -, -⟩ | ⟨h, o', -, hreceived⟩
    · refine ⟨x, hx, hparent, isSettled_of_isOffered hoffered hphase, rfl, rfl, _, ?_, howes⟩
      rintro rfl
      cases hserves.symm.trans howes.serves
    · rw [hnil] at hreceived
      cases hreceived
  refine ⟨honly, ?_, ?_, ?_⟩
  · intro h d hd
    rcases hreceipt with ⟨-, hnil, -⟩ | ⟨h', o', houtcome, hreceived⟩
    · rw [hnil] at hd
      cases hd
    · obtain ⟨rfl, rfl⟩ := Prod.mk.inj (Option.some.inj (hreceived.symm.trans hd))
      rw [hhead houtcome]
  · intro hnil houtcomes hoffered purpose hhandle
    have hwaits := hawaits hnil hoffered (by rw [hhandle]; rfl)
    rw [hhandle, hpublished houtcomes] at hwaits
    exact hwaits.fetchAnswer
  · intro hnil houtcomes hoffered hpolled k
    have hwaits := hawaits hnil hoffered (Handle.serves_report_of_isPolled hpolled)
    rw [hpublished houtcomes] at hwaits
    exact hwaits.pollAnswer hpolled k

/-- What comes of the reservation `r` when its caller has launched the computation by the operation
`u` after `early`, and `late` has happened since; `x` is what became of the reservation. -/
structure Retention (r : ReservationId) (early : List (Action V)) (u : Use) (late : List (Action V))
    (x : Reservation V) : Prop where
  /-- If the computation was not forsaken, the caller is handed the outcome that it comes to by
  itself. -/
  keeps : ¬Forsaken r (run {} early) (.use r u :: late) →
    Yields r (early ++ .use r u :: late) x x.computation.ending.outcome
  /-- If it was, he is handed that it was cancelled. -/
  loses : Forsaken r (run {} early) (.use r u :: late) →
    Yields r (early ++ .use r u :: late) x (.error .cancelled)
  /-- It was not if a caller has kept a reference to its scope. -/
  shared : (∀ before after, .use r u :: late = before ++ after →
    x.scope ∈ ((run {} early).run before).held) → ¬Forsaken r (run {} early) (.use r u :: late)
  /-- Once all is at rest, there is an outcome. -/
  returns : (run {} (early ++ .use r u :: late)).AtRest → x.phase.isLaunched = true → x.outcomes ≠ []
  /-- All comes to rest if gates are opened and time passes. -/
  rests : ∃ further, (∀ a ∈ further, a.isUnattended = true) ∧
    ((run {} (early ++ .use r u :: late)).run further).AtRest

/-- In every run, what the caller of a reservation on an open scope with a pool of its own is handed
depends only on whether the computation was forsaken, if no abort was requested. -/
theorem retention_run (hx : (run {} early).reservations[r]? = some x)
    (hscope : (run {} early).scopes[x.scope]? = some scope) (hown : scope.owns = true)
    (hstarts : (Action.use r u : Action V).starts r x = true)
    (hx' : (run {} (early ++ .use r u :: late)).reservations[r]? = some x')
    (hopen : (run {} (early ++ .use r u :: late)).isClosed x.scope = false)
    (haborted : x'.aborted = false) : Retention r early u late x' := by
  obtain ⟨hphase, hparent, -⟩ := captured_of_starts hx hstarts
  obtain ⟨hreceipt, hcaptured⟩ := receipt_of_starts hx hstarts hx' haborted
  -- The computation has not begun, so nothing is published yet.
  have hbefore : .error .cancelled ∉ x.outcomes := by
    rw [(sound_run hx).running (by rw [hphase]; rfl)]
    exact List.not_mem_nil
  have hlater := hx'
  rw [run_append] at hlater hopen
  obtain ⟨y, hy, hgrows⟩ := exists_grows_run hx (.use r u :: late)
  obtain rfl := Option.some.inj (hlater.symm.trans hy)
  have hparent' := hgrows.parent_eq.trans hparent
  refine ⟨?_, ?_, ?_, ?_, exists_atRest _⟩
  · intro hkept
    refine yields_of_receipt hx' hparent' hcaptured hreceipt fun o ho => ?_
    rw [hgrows.computation_eq]
    exact outcomes_of_not_forsaken hx hscope hown hbefore hlater hopen haborted hkept ho
  · intro hforsaken
    refine yields_of_receipt hx' hparent' hcaptured hreceipt fun o ho => ?_
    exact outcomes_of_forsaken hx hscope hown hlater hopen hforsaken ho
  · rintro hheld ⟨before, after, z, hsplit, hz, -, hnobody⟩
    obtain ⟨z', hz', hgrows'⟩ := exists_grows_run hx before
    obtain rfl := Option.some.inj (hz.symm.trans hz')
    refine hnobody (List.mem_append_left _ ?_)
    rw [hgrows'.scope_eq, ← hgrows.scope_eq]
    exact hheld before after hsplit
  · intro hrest hlaunched
    obtain ⟨callback?, x₁, hx₁, -, hlaunches, -⟩ := owes_launch hx hstarts
    have hjoin : run {} (early ++ .use r u :: late) = (run {} (early ++ [.use r u])).run late := by
      rw [← run_append, List.append_assoc, List.singleton_append]
    obtain ⟨z, hz, hgrows'⟩ := exists_grows_run hx₁ late
    rw [hjoin] at hx'
    obtain rfl := Option.some.inj (hx'.symm.trans hz)
    rw [← hjoin] at hx'
    refine (sound_run hx').outcomes_ne_nil ?_ (isOver_of_atRest hrest hx' hlaunched)
    exact Nat.pos_iff_ne_zero.mp (Nat.lt_of_lt_of_le (Nat.pos_of_ne_zero hlaunches) hgrows'.launches_le)

/-- A scope, and a reservation on it whose computation waits at a door. -/
def behindDoor : List (Action Nat) :=
  [.build {}, .reserve 0 none "a" (.gate "door" (.finish (.value 7)))]

/-- What happens to the computation once it is launched: it comes to the door, and the door is
opened when it can have been dropped. -/
def throughDoor : List (Action Nat) :=
  [.testClosed 0, .spawn 0, .resume 0, .step 0, .letGo 0, .dropTask 0, .openGate "door", .resume 0,
    .step 0]

/-- The caller that has dropped his reference to the scope has forsaken the computation by blocking
on the reservation. -/
theorem retention_behindDoor : ∃ x,
    (run {} ((behindDoor ++ [.unshare 0]) ++ .use 0 (.block none) :: throughDoor)).reservations = [x] ∧
    Forsaken 0 (run {} (behindDoor ++ [.unshare 0])) (.use 0 (.block none) :: throughDoor) ∧
    x.outcomes = [.error .cancelled] ∧
    Retention 0 (behindDoor ++ [.unshare 0]) (.block none) throughDoor x := by
  refine ⟨_, rfl, ?_, rfl, retention_run rfl rfl rfl rfl rfl rfl rfl⟩
  exact ⟨.use 0 (.block none) :: throughDoor.take 5, throughDoor.drop 5, _, rfl, rfl, rfl, nofun⟩

/-- With his reference kept, the caller is answered with the value that the computation comes
to. Without, he is answered that it was cancelled, although nobody has shut the scope down or
asked for an abort. -/
theorem not_keeps_behindDoor :
    (run {} (behindDoor ++ .use 0 (.block none) :: throughDoor)).fetchAnswer 0 =
        some (.outcome (.ok 7)) ∧
      ∃ x, (run {} (behindDoor ++ .unshare 0 :: .use 0 (.block none) :: throughDoor)).reservations = [x] ∧
        x.computation.ending = .value 7 ∧ x.aborted = false ∧
        (run {} (behindDoor ++ .unshare 0 :: .use 0 (.block none) :: throughDoor)).isClosed 0 = false ∧
        (run {} (behindDoor ++ .unshare 0 :: .use 0 (.block none) :: throughDoor)).fetchAnswer 0 =
          some (.outcome (.error .cancelled)) :=
  ⟨rfl, _, rfl, rfl, rfl, rfl, rfl⟩

end System

end Deferral
