import Deferral.Proofs.System.Abort
import Deferral.Proofs.System.Ownership
import Mathlib.Data.List.Chain

/-!
# Cascades

Computations that wait for each other form a chain. A link of it is a handle: the one of a future
leaves the computation alone when it is dropped, and the others, which are *cold*, give it up. When
the first computation of a chain is aborted, the abort runs along the cold links and stops before
the first future; what comes from there on goes on as if nothing had happened.

Main statements:
* `spared_of_chain`: what is waited for by means of a future is not aborted with those who wait.
* `cascade_run`: in every run, an abort reaches the computations of a chain exactly as far as the
  cold links go.
-/

namespace Deferral

variable {V : Type}

namespace System

variable {w w' : System V} {a : Action V} {p r c : ReservationId} {x x' : Reservation V}
  {links : List (Access × ReservationId)}

/-- The computation of `r` and those of the links wait for each other: each but the last is
suspended until it has the result of the next one, and has the handle that this access needs. -/
inductive Chain (w : System V) : ReservationId → List (Access × ReservationId) → Prop
  /-- The chain ends. -/
  | nil (r : ReservationId) : Chain w r []
  /-- The computation of `r` waits for the reservation `c`. -/
  | cons {r c : ReservationId} {x : Reservation V} {access : Access} {s : ScopeId}
      {inner rest : Computation ScopeId V} {links : List (Access × ReservationId)}
      (hx : w.reservations[r]? = some x) (hphase : x.phase = .paused (.inner c))
      (hrest : x.rest = .await access s inner rest) (h : Chain w c links) :
      Chain w r ((access, c) :: links)

/-- The computations before the first future of a chain. -/
def cold (links : List (Access × ReservationId)) : List ReservationId :=
  (links.takeWhile fun link => link.1 != .spawn).map Prod.snd

/-- The computations from the first future of a chain on. -/
def hot (links : List (Access × ReservationId)) : List ReservationId :=
  (links.dropWhile fun link => link.1 != .spawn).map Prod.snd

/-- The computations of a chain are dropped one after the other, up to the first future. -/
def cascade (r : ReservationId) (links : List (Access × ReservationId)) : List (Action V) :=
  (r :: cold links).map .dropTask

/-! ## Chains -/

/-- The reservation at the end of a link is the one that was made for it. -/
theorem exists_tends_of_chain {actions : List (Action V)} {access : Access} {s : ScopeId}
    {inner rest : Computation ScopeId V} (hx : (run {} actions).reservations[r]? = some x)
    (hphase : x.phase = .paused (.inner c)) (hrest : x.rest = .await access s inner rest) :
    ∃ z, (run {} actions).Tends r x c access z ∧ r < c ∧ z.launches ≠ 0 := by
  obtain ⟨access', z, htends, hlt, hlaunches⟩ := exists_tends hx (by rw [hphase]; rfl)
  obtain ⟨rest', hrest'⟩ := htends.rest_eq
  obtain ⟨rfl, -⟩ := Computation.await.inj (hrest.symm.trans hrest')
  exact ⟨z, htends, hlt, hlaunches⟩

/-- Along the cold links, everybody has a handle that gives the next computation up. -/
theorem Chain.isChain_bound {actions : List (Action V)} (h : Chain (run {} actions) r links) :
    List.IsChain (Bound (run {} actions)) (r :: cold links) := by
  induction h with
  | nil r => exact .singleton r
  | @cons r c x access s inner rest links hx hphase hrest h ih =>
    by_cases hspawn : access = .spawn
    · simp [cold, hspawn]
    · have hcold : cold ((access, c) :: links) = c :: cold links := by simp [cold, hspawn]
      obtain ⟨z, htends, -⟩ := exists_tends_of_chain hx hphase hrest
      have hgives : Consumer.givesUp z.consumer.handle = true := by
        rw [htends.handle_eq, Access.givesUp_consumer (htends.suspends hphase).1]
        exact hspawn
      rw [hcold]
      exact .cons_cons (.inl ⟨x, z, hx, hphase, htends.getElem?_eq, hgives⟩) ih

/-- The computations of a chain are made one after the other. -/
theorem Chain.pairwise_lt {actions : List (Action V)} (h : Chain (run {} actions) r links) :
    List.Pairwise (· < ·) (r :: links.map Prod.snd) := by
  refine List.isChain_iff_pairwise.mp ?_
  induction h with
  | nil r => exact .singleton r
  | cons hx hphase hrest h ih =>
    obtain ⟨z, -, hlt, -⟩ := exists_tends_of_chain hx hphase hrest
    exact .cons_cons hlt ih

/-- The links are the cold ones and those from the first future on. -/
theorem map_snd_eq (links : List (Access × ReservationId)) :
    links.map Prod.snd = cold links ++ hot links := by
  rw [cold, hot, ← List.map_append, List.takeWhile_append_dropWhile]

/-- The cold computations are not among those from the first future on. -/
theorem Chain.lt_of_mem_hot {actions : List (Action V)} (h : Chain (run {} actions) r links)
    {q : ReservationId} (hq : q ∈ r :: cold links) (hc : c ∈ hot links) : q < c := by
  have hpairwise := h.pairwise_lt
  rw [map_snd_eq, ← List.cons_append, List.pairwise_append] at hpairwise
  exact hpairwise.2.2 q hq c hc

/-- The computations of a chain that come after the first one were made by others, and launched. -/
theorem Chain.ne_captured_of_mem {actions : List (Action V)} (h : Chain (run {} actions) r links)
    (hc : c ∈ links.map Prod.snd) (before : List (Action V))
    (hx : ((run {} actions).run before).reservations[c]? = some x) : x.phase ≠ .captured := by
  induction h with
  | nil => cases hc
  | cons hy hphase hrest h ih =>
    rcases List.mem_cons.mp hc with rfl | hc
    · obtain ⟨z, htends, -⟩ := exists_tends_of_chain hy hphase hrest
      have hgrows := grows_of_run htends.getElem?_eq hx
      rw [← run_append] at hx
      refine (started_run hx).ne_captured ?_
      rw [hgrows.parent_eq, htends.parent_eq]
      nofun
    · exact ih hc

/-- From the first future on, a chain is a chain that begins with a future. -/
theorem Chain.exists_hot (h : Chain w r links) :
    ∃ p, Chain w p (links.dropWhile fun link => link.1 != .spawn) ∧
      ∀ access c rest, links.dropWhile (fun link => link.1 != .spawn) = (access, c) :: rest →
        access = .spawn := by
  induction h with
  | nil r => exact ⟨r, .nil r, nofun⟩
  | @cons r c x access s inner rest links hx hphase hrest h ih =>
    by_cases hspawn : access = .spawn
    · subst hspawn
      exact ⟨r, .cons hx hphase hrest h, fun _ _ _ heq =>
        (Prod.mk.inj (List.cons.inj heq).1).1.symm⟩
    · simpa [List.dropWhile_cons, hspawn] using ih

/-! ## Computations that are spared -/

/-- Nobody has disturbed the computation on the way from `x` to `x'`. -/
structure Undisturbed (x x' : Reservation V) : Prop where
  /-- Its launch has got past handing it to the pool. -/
  isLaunched : x'.phase.isLaunched = true
  /-- It has no outcome that others have caused. -/
  outcomes : ∀ o ∈ x'.outcomes, o ∈ x.outcomes ∨ o ≠ .error .scopeClosed ∧ o ≠ .error .cancelled
  /-- If an abort was requested, then too late. -/
  aborted : x'.aborted = true → x'.outcomes ≠ []

/-- An action disturbs a nested computation only if it drops the one that has its handle. -/
theorem undisturbed_act {actions : List (Action V)} {y y' : Reservation V}
    (hy : (run {} actions).reservations[r]? = some y)
    (hy' : ((run {} actions).act a).reservations[r]? = some y') (h : Undisturbed x y)
    (hparent : y.parent = some p) (halive : (run {} actions).poolAlive y.scope = true)
    (hkeeps : a = .dropTask p → ¬(run {} actions).GivesUpNested r y p (.dropTask p)) :
    Undisturbed x y' := by
  have hchanges := changes_of_act hy hy'
  have haccounted := Changes.accounted hchanges
  have haborted : y'.aborted = true → y.outcomes ≠ [] := by
    intro haborted
    rcases (aborted_act hy hy').mp haborted with hbefore | ⟨-, hgives⟩
    · exact h.aborted hbefore
    · cases hgives.nested hy hparent with
      | dropTask hp hphase hdoomed hgives' =>
        exact absurd (.dropTask hp hphase hdoomed hgives') (hkeeps rfl)
      | step _ _ _ hhandle hready =>
        -- Something can be received only once the outcome is there.
        have hdone := (sound_run hy).isDone_eq.symm.trans (isDone_of_isReady_channel_run hy hready)
        simpa using hdone
  refine ⟨hchanges.isLaunched h.isLaunched, fun o ho => ?_, fun h' hnil => ?_⟩
  · by_cases hnil : y.outcomes = []
    · refine .inr ⟨fun hclosed => ?_, fun hcancelled => ?_⟩
      · subst hclosed
        rcases haccounted.scopeClosed ho with hbefore | ⟨-, z, hz, hphase, -⟩
        · rw [hnil] at hbefore
          cases hbefore
        · obtain rfl := Option.some.inj (hy.symm.trans hz)
          cases (congrArg Phase.isLaunched hphase).symm.trans h.isLaunched
      · subst hcancelled
        rcases haccounted.cancelled ho with hbefore | habort | hdead
        · rw [hnil] at hbefore
          cases hbefore
        · exact haborted habort hnil
        · rw [haccounted.scope_eq, halive] at hdead
          cases hdead
    · have hover : y.phase.isOver = true := by
        by_contra hover
        exact hnil ((sound_run hy).running (Bool.eq_false_iff.mpr hover))
      rw [(haccounted.eq_of_isOver hover).2] at ho
      exact h.outcomes o ho
  · exact haborted h' (List.prefix_nil.mp (hnil ▸ haccounted.outcomes_prefix))

/-- A pool that is up was up before. -/
theorem poolAlive_of_run {actions further : List (Action V)}
    (hx : (run {} actions).reservations[r]? = some x)
    (halive : ((run {} actions).run further).poolAlive x.scope = true) :
    (run {} actions).poolAlive x.scope = true := by
  by_contra hdead
  have hvalid := valid_run (V := V) actions
  have hlt := hvalid.scope_lt r x hx x.scope List.mem_cons_self
  have hdown := hvalid.isDown_of_poolAlive_eq_false hlt (Bool.eq_false_iff.mpr hdead)
  cases (isDown_run hdown further).poolAlive_eq_false.symm.trans halive

/-- A nested computation is disturbed only by dropping the one that has its handle. -/
theorem undisturbed_run {actions further : List (Action V)}
    (hx : (run {} actions).reservations[r]? = some x) (hparent : x.parent = some p)
    (hlaunched : x.phase.isLaunched = true) (haborted : x.aborted = false)
    (halive : ((run {} actions).run further).poolAlive x.scope = true)
    (hkeeps : ∀ before after y, further = before ++ .dropTask p :: after →
      ((run {} actions).run before).reservations[r]? = some y →
        ¬((run {} actions).run before).GivesUpNested r y p (.dropTask p)) :
    (run {} actions).LeadsTo further r (Undisturbed x) := by
  obtain ⟨x', hx', -⟩ := exists_grows_run hx further
  refine ⟨x', hx', ?_⟩
  induction hx' using run_induction_from hx with
  | start => exact ⟨hlaunched, fun o ho => .inl ho, fun h => by cases haborted.symm.trans h⟩
  | @act further a y y' hy' hy hgrows _ ih =>
    -- The pool was alive before the last action, too, since no pool is revived.
    have hbefore : ((run {} actions).run further).poolAlive x.scope = true := by
      rw [run_append, ← run_append {} actions, ← hgrows.scope_eq] at halive
      rw [← run_append] at hy ⊢
      rw [← hgrows.scope_eq]
      exact poolAlive_of_run hy halive
    have hundisturbed := ih hbefore fun before after y hsplit =>
      hkeeps before (after ++ [a]) y (by rw [hsplit]; simp)
    have hkeep : a = .dropTask p →
        ¬((run {} actions).run further).GivesUpNested r y p (.dropTask p) := fun ha =>
      hkeeps further [] y (by rw [ha]) hy
    rw [← run_append] at hy hy' hkeep hbefore
    exact undisturbed_act hy hy' hundisturbed (hgrows.parent_eq.trans hparent)
      (hgrows.scope_eq ▸ hbefore) hkeep

/-- The computation goes on by itself on the way from `x` to `x'`, which is what has become of it in
the system `w'`. -/
structure Spared (w' : System V) (x x' : Reservation V) : Prop where
  /-- It has the outcome that it had, or the one of its own end. -/
  outcomes : ∀ o ∈ x'.outcomes, o ∈ x.outcomes ∨ ∃ e, x'.RanTo e ∧ o = e.outcome
  /-- It is not dropped. -/
  dropped : x'.phase = .dropped → x.phase = .dropped
  /-- No abort of it is requested before its end. -/
  aborted : x'.aborted = true → x'.phase.isOver = true
  /-- Until then it is taken up again whenever it is due. -/
  isDoomed : x'.phase.isOver = false → w'.isDoomed x' = false

/-- A computation that nobody has disturbed goes on by itself. -/
theorem Undisturbed.spared (h : Undisturbed x x') (hsound : x'.Sound) (hgrows : x.Grows x')
    (hlaunches : x.launches ≠ 0) (hsound₀ : x.Sound) (halive : w'.poolAlive x'.scope = true) :
    Spared w' x x' := by
  have haborted : x'.aborted = true → x'.phase.isOver = true := fun haborted => by
    by_contra hover
    exact h.aborted haborted (hsound.running (Bool.eq_false_iff.mpr hover))
  have isOver {o : Outcome V} (ho : o ∈ x.outcomes) : x.phase.isOver = true := by
    by_contra hover
    rw [hsound₀.running (Bool.eq_false_iff.mpr hover)] at ho
    cases ho
  refine ⟨fun o ho => ?_, fun hdropped => ?_, haborted, fun hover => ?_⟩
  · refine (h.outcomes o ho).imp_right fun ⟨hclosed, hcancelled⟩ => ?_
    exact (hsound.mem_outcomes_iff hclosed hcancelled).mp ho
  · -- It was dropped with an outcome that others have caused, so it had that before.
    have caused {o : Outcome V} (ho : o ∈ x'.outcomes)
        (hcause : o = .error .scopeClosed ∨ o = .error .cancelled) : x.phase = .dropped := by
      have hbefore := (h.outcomes o ho).resolve_right fun hno => hcause.elim hno.1 hno.2
      rw [← (hgrows.eq_of_isOver (isOver hbefore)).1]
      exact hdropped
    rcases hsound.dropped hdropped with ⟨hzero, -⟩ | hrefused | hcancelled
    · exact absurd hzero (hgrows.launches_ne_zero hlaunches)
    · exact caused (by rw [hrefused.outcomes_eq]; exact List.mem_cons_self) (.inl rfl)
    · exact caused (by rw [hcancelled]; exact List.mem_cons_self) (.inr rfl)
  · rw [System.isDoomed, halive, Bool.not_true, Bool.or_false]
    exact Bool.eq_false_iff.mpr fun h => by cases hover.symm.trans (haborted h)

/-- Whoever was dropped because he was aborted has been told so for good. -/
theorem cancelled_mem_of_dropTask {actions before after : List (Action V)} {y : Reservation V}
    (hy : ((run {} actions).run before).reservations[p]? = some y)
    (hphase : y.phase = .paused (.inner c))
    (hdoomed : ((run {} actions).run before).isDoomed y = true) :
    (run {} actions).LeadsTo (before ++ .dropTask p :: after) p fun x =>
      .error .cancelled ∈ x.outcomes := by
  obtain ⟨y', hy', -, houtcomes⟩ := exists_getElem?_dropTask hy (by rw [hphase]; rfl) hdoomed
  obtain ⟨x, hx, hgrows⟩ := exists_grows_run hy' after
  refine ⟨x, by rw [run_append]; exact hx, hgrows.outcomes_prefix.subset ?_⟩
  rw [houtcomes]
  exact List.mem_append_right _ List.mem_cons_self

/-- The handle of a future is never one that gives the computation up. -/
theorem handle_eq_future_or_gone_run {actions further : List (Action V)}
    (hx : (run {} actions).reservations[r]? = some x) (hparent : x.parent ≠ none)
    (hhandle : x.consumer.handle = .future) :
    (run {} actions).LeadsTo further r fun x' =>
      x'.consumer.handle = .future ∨ x'.consumer.handle = .gone := by
  obtain ⟨x', hx', -⟩ := exists_grows_run hx further
  refine ⟨x', hx', ?_⟩
  induction hx' using run_induction_from hx with
  | start => exact .inl hhandle
  | act hy' hy hgrows _ ih =>
    rw [← run_append] at hy hy'
    rcases handle_eq_or_eq_gone hy (hgrows.parent_eq ▸ hparent) hy' with hsame | hgone
    · rw [hsame]
      exact ih
    · exact .inr hgone

/-- What a computation waits for goes on by itself if its pool stays up, and either is waited for by
means of a future, or the one who waits for it is not cancelled. -/
theorem spared_of_tends {actions further : List (Action V)} {access : Access}
    (htends : (run {} actions).Tends p x c access x') (hphase : x.phase = .paused (.inner c))
    (hlaunches : x'.launches ≠ 0)
    (hfirst : access = .spawn ∨ ∀ y, ((run {} actions).run further).reservations[p]? = some y →
      .error .cancelled ∉ y.outcomes)
    (halive : ((run {} actions).run further).poolAlive x'.scope = true) :
    (run {} actions).LeadsTo further c (Spared ((run {} actions).run further) x') := by
  have hx' := htends.getElem?_eq
  have hparent : x'.parent ≠ none := by rw [htends.parent_eq]; nofun
  have haborted : x'.aborted = false := by
    -- Its handle is still there.
    refine Bool.eq_false_iff.mpr fun haborted => ?_
    have hgone := handle_eq_gone_of_aborted hx' hparent haborted
    exact access.handle_consumer_ne_gone (htends.handle_eq.symm.trans hgone)
  obtain ⟨y, hy, hundisturbed⟩ : (run {} actions).LeadsTo further c (Undisturbed x') := by
    refine undisturbed_run hx' htends.parent_eq (htends.suspends hphase).2 haborted halive ?_
    intro before after z hsplit hz hgives
    cases hgives with
    | dropTask hp hpaused hdoomed hgives =>
      rcases hfirst with rfl | huncancelled
      · -- To drop a future is not to give anything up.
        have hfuture : x'.consumer.handle = .future := htends.handle_eq
        obtain ⟨z', hz', hhandle⟩ := handle_eq_future_or_gone_run hx' hparent hfuture
        obtain rfl := Option.some.inj (hz.symm.trans hz')
        rcases hhandle with hhandle | hhandle <;> rw [hhandle] at hgives <;> cases hgives
      · obtain ⟨p', hp', hmem⟩ := cancelled_mem_of_dropTask hp hpaused hdoomed
        rw [← hsplit] at hp'
        exact huncancelled p' hp' hmem
  have hgrows := grows_of_run hx' hy
  exact ⟨y, hy, hundisturbed.spared (sound_and_flagged_run hy).1 hgrows hlaunches (sound_run hx')
    (hgrows.scope_eq ▸ halive)⟩

/-- What goes on by itself is not cancelled, if it had no outcome before. -/
theorem Spared.cancelled_notMem (h : Spared w' x x') (hnil : x.outcomes = []) :
    .error .cancelled ∉ x'.outcomes := by
  intro hcancelled
  rcases h.outcomes _ hcancelled with hbefore | ⟨e, -, he⟩
  · rw [hnil] at hbefore
    cases hbefore
  · exact e.outcome_ne.2 he.symm

/-- Who waits for another one along a chain has no outcome yet. -/
theorem Chain.outcomes_eq_nil {actions : List (Action V)} (h : Chain (run {} actions) r links)
    (hx : (run {} actions).reservations[r]? = some x) (hlinks : links ≠ []) : x.outcomes = [] := by
  cases h with
  | nil => exact absurd rfl hlinks
  | cons hy hphase =>
    obtain rfl := Option.some.inj (hx.symm.trans hy)
    exact (sound_run hx).running (by rw [hphase]; rfl)

/-- What is waited for along a chain is spared if its pools stay up, and the first one either is
waited for by means of a future, or the one who waits for it is not cancelled. -/
theorem spared_of_chain {actions further : List (Action V)} (h : Chain (run {} actions) p links)
    (hfirst : (∀ access c rest, links = (access, c) :: rest → access = .spawn) ∨
      ∀ y, ((run {} actions).run further).reservations[p]? = some y →
        .error .cancelled ∉ y.outcomes)
    (halive : ∀ c ∈ links.map Prod.snd, ∀ x, (run {} actions).reservations[c]? = some x →
      ((run {} actions).run further).poolAlive x.scope = true) :
    ∀ c ∈ links.map Prod.snd, ∀ x, (run {} actions).reservations[c]? = some x →
      (run {} actions).LeadsTo further c (Spared ((run {} actions).run further) x) := by
  induction h with
  | nil => nofun
  | @cons p c y access s inner rest links hy hphase hrest h ih =>
    obtain ⟨x, htends, -, hlaunches⟩ := exists_tends_of_chain hy hphase hrest
    have hx := htends.getElem?_eq
    have hspared := spared_of_tends htends hphase hlaunches
      (hfirst.imp_left fun hspawn => hspawn access c links rfl) (halive c List.mem_cons_self x hx)
    intro d hd z hz
    rcases List.mem_cons.mp hd with rfl | hd
    · obtain rfl := Option.some.inj (hx.symm.trans hz)
      exact hspared
    · -- It waits for the next one, which it does not give up as long as it is spared itself.
      refine ih (.inr fun y hy => ?_) (fun d hd => halive d (List.mem_cons_of_mem _ hd)) d hd z hz
      obtain ⟨x', hx', hspared⟩ := hspared
      obtain rfl := Option.some.inj (hx'.symm.trans hy)
      refine hspared.cancelled_notMem (h.outcomes_eq_nil hx ?_)
      rintro rfl
      cases hd

/-! ## Cascades -/

/-- On the way from `w` to `w'` the scope goes on carrying computations out: it has a pool of its
own, is open, and some caller refers to it, or else the pool it was made on is up. -/
def Stays (w w' : System V) (s : ScopeId) : Prop :=
  (∃ scope, w.scopes[s]? = some scope ∧ scope.owns = true) ∧ w'.isClosed s = false ∧ s ∈ w'.held ∨
    w'.poolAlive s = true

/-- A scope that goes on carrying computations out has a pool that is up. -/
theorem Stays.poolAlive {actions further : List (Action V)} {s : ScopeId}
    (h : Stays (run {} actions) ((run {} actions).run further) s) :
    ((run {} actions).run further).poolAlive s = true := by
  rcases h with ⟨⟨scope, hscope, hown⟩, hopen, hheld⟩ | halive
  · exact poolAlive_run hscope hown (List.mem_append_left _ hheld) hopen
  · exact halive

/-- In the run so far, the computation of `r` was aborted while it waits at the beginning of a
chain. The abort runs along the chain exactly as far as the cold links go. -/
structure Cascade (actions : List (Action V)) (r : ReservationId)
    (links : List (Access × ReservationId)) : Prop where
  /-- When the computations are dropped one after the other, each of them is aborted that is not
  over, and each that is suspended ends where it is. -/
  falls : ∀ c ∈ r :: cold links, ∀ x, (run {} actions).reservations[c]? = some x →
    x.phase.isOver = false → (run {} actions).LeadsTo (cascade r links) c fun x' =>
      x'.aborted = true ∧ (x.phase.isSuspended = true → x'.phase = .dropped ∧
        x'.outcomes = [.error .cancelled] ∧ x'.position = x.position)
  /-- Whatever happens in between, each of them is aborted, or has come to an outcome before. -/
  reaches : ∀ further, (cascade r links).Sublist further → ∀ c ∈ r :: cold links,
    ((run {} actions).run further).Reached c
  /-- None of them takes a step after the suspension at which the abort has reached it. -/
  halts : ∀ before, ∀ c ∈ r :: cold links, ∀ x,
    ((run {} actions).run before).reservations[c]? = some x → x.aborted = true →
      x.phase.isSuspended = true → ∀ further,
        ((run {} actions).run before).LeadsTo further c fun x' => x'.position = x.position ∧
          x'.rest = x.rest ∧ (x'.phase = x.phase ∨ x'.phase = .dropped)
  /-- None that comes from the first future on is carried on or dropped by that. -/
  passes : ∀ before, ∀ q ∈ r :: cold links, ∀ c ∈ hot links, ∀ x,
    ((run {} actions).run before).reservations[c]? = some x →
      ((run {} actions).run before).LeadsTo [.dropTask q] c x.Idles
  /-- They all go on by themselves as long as their scopes can carry them out. -/
  spares : ∀ further, (∀ c ∈ hot links, ∀ x, (run {} actions).reservations[c]? = some x →
      Stays (run {} actions) ((run {} actions).run further) x.scope) →
    ∀ c ∈ hot links, ∀ x, (run {} actions).reservations[c]? = some x →
      (run {} actions).LeadsTo further c (Spared ((run {} actions).run further) x)

/-- An abort reaches every cold computation of a chain when those before it are dropped. -/
theorem Chain.reached {actions further : List (Action V)} (h : Chain (run {} actions) r links)
    (hr : (run {} actions).Reached r) {between after : List ReservationId}
    (hsplit : r :: cold links = between ++ c :: after)
    (hdrops : (between.map .dropTask).Sublist further) :
    ((run {} actions).run further).Reached c := by
  cases between with
  | nil =>
    obtain rfl := (List.cons.inj hsplit).1
    exact reached_run hr further
  | cons q between =>
    obtain rfl := (List.cons.inj hsplit).1
    have hchainSplit : r :: cold links = r :: (between ++ [c]) ++ after := by
      rw [hsplit]
      simp
    have hchain := h.isChain_bound
    rw [hchainSplit] at hchain
    exact reached_of_chain hr hchain.left_of_append hdrops

/-- A cold computation of a chain, or the first one, was launched. -/
theorem Chain.ne_captured {actions : List (Action V)} (h : Chain (run {} actions) r links)
    (hr : ∀ y, (run {} actions).reservations[r]? = some y → y.aborted = true)
    (hc : c ∈ r :: cold links) (hx : (run {} actions).reservations[c]? = some x) :
    x.phase ≠ .captured := by
  rcases List.mem_cons.mp hc with rfl | hcold
  · -- Nothing is aborted that was not launched.
    intro hphase
    have hflags := (flagged_run hx).unlaunched (by rw [hphase]; rfl)
    cases hflags.2.symm.trans (hr x hx)
  · refine h.ne_captured_of_mem ?_ [] hx
    rw [map_snd_eq]
    exact List.mem_append_left _ hcold

/-- When the computations of a chain are dropped one after the other, each of them is aborted that
is not over, and each that is suspended ends where it is. -/
theorem Chain.falls {actions : List (Action V)} (h : Chain (run {} actions) r links)
    {y : Reservation V} (hy : (run {} actions).reservations[r]? = some y)
    (haborted : y.aborted = true) (hc : c ∈ r :: cold links)
    (hx : (run {} actions).reservations[c]? = some x) (hover : x.phase.isOver = false) :
    (run {} actions).LeadsTo (cascade r links) c fun x' =>
      x'.aborted = true ∧ (x.phase.isSuspended = true → x'.phase = .dropped ∧
        x'.outcomes = [.error .cancelled] ∧ x'.position = x.position) := by
  have hphase : x.phase ≠ .captured := h.ne_captured (fun z hz => by
    obtain rfl := Option.some.inj (hy.symm.trans hz)
    exact haborted) hc hx
  have hnil : x.outcomes = [] := (sound_run hx).running hover
  have hr : (run {} actions).Reached r := ⟨y, hy, .inl haborted⟩
  obtain ⟨between, after, hsplit, hbetween⟩ := List.eq_append_cons_of_mem hc
  have hcascade : cascade r links =
      (between.map .dropTask ++ .dropTask c :: after.map .dropTask : List (Action V)) := by
    rw [cascade, hsplit, List.map_append, List.map_cons]
  -- Up to its turn it only gets aborted.
  obtain ⟨z, hz, hidles⟩ := leadsTo_idles between hx hphase fun h => absurd h hbetween
  have hzaborted : z.aborted = true := by
    obtain ⟨z', hz', hreached⟩ := h.reached hr hsplit (List.Sublist.refl _)
    obtain rfl := Option.some.inj (hz.symm.trans hz')
    exact hreached.resolve_right fun h => h (hidles.outcomes_eq.trans hnil)
  rw [hcascade, LeadsTo, run_append]
  by_cases hsuspended : x.phase.isSuspended = true
  · have hzsuspended : z.phase.isSuspended = true := by rw [hidles.phase_eq, hsuspended]
    have hdoomed : ((run {} actions).run (between.map .dropTask)).isDoomed z = true := by
      rw [isDoomed, hzaborted, Bool.true_or]
    obtain ⟨z', hz', hdropped, houtcomes⟩ := exists_getElem?_dropTask hz hzsuspended hdoomed
    obtain ⟨x', hx', hposition, -⟩ := leadsTo_halted hz hzaborted (.inl hzsuspended)
      (.dropTask c :: after.map .dropTask)
    -- What the task was left with when it was dropped it keeps.
    have hgrows := grows_of_run hz hx'
    obtain ⟨hkeep, hkeep'⟩ := (grows_of_run hz' hx').eq_of_isOver (by rw [hdropped]; rfl)
    refine ⟨_, hx', hgrows.aborted_of_aborted hzaborted, fun _ => ⟨hkeep.trans hdropped, ?_,
      hposition.trans hidles.position_eq⟩⟩
    rw [hkeep', houtcomes, hidles.outcomes_eq, hnil]
    rfl
  · -- What is not suspended is left alone by all of this.
    have hzphase : z.phase ≠ .captured := by rw [hidles.phase_eq]; exact hphase
    obtain ⟨x', hx', -⟩ := leadsTo_idles (c :: after) hz hzphase fun _ => by
      rw [hidles.phase_eq]
      exact Bool.eq_false_iff.mpr hsuspended
    have hgrows := grows_of_run hz hx'
    exact ⟨_, hx', hgrows.aborted_of_aborted hzaborted, fun h => absurd h hsuspended⟩

/-- In every run, if a computation is aborted while it waits at the beginning of a chain, then the
abort runs along the chain exactly as far as the cold links go. -/
theorem cascade_run {actions : List (Action V)} (h : Chain (run {} actions) r links)
    (hx : (run {} actions).reservations[r]? = some x) (haborted : x.aborted = true) :
    Cascade actions r links where
  falls _ hc _ hy hover := h.falls hx haborted hc hy hover
  reaches further hdrops c hc := by
    obtain ⟨between, after, hsplit, -⟩ := List.eq_append_cons_of_mem hc
    refine h.reached ⟨x, hx, .inl haborted⟩ hsplit (List.Sublist.trans ?_ hdrops)
    rw [cascade, hsplit, List.map_append]
    exact List.sublist_append_left ..
  halts _ _ _ _ hy haborted hsuspended := leadsTo_halted hy haborted (.inl hsuspended)
  passes before q hq c hc y hy := by
    have hmem : c ∈ links.map Prod.snd := by
      rw [map_snd_eq]
      exact List.mem_append_right _ hc
    refine leadsTo_idles [q] hy (h.ne_captured_of_mem hmem before hy) fun hcq => ?_
    obtain rfl := List.mem_singleton.mp hcq
    exact absurd (h.lt_of_mem_hot hq hc) (Nat.lt_irrefl _)
  spares further hstays := by
    obtain ⟨p, hhot, hfuture⟩ := h.exists_hot
    refine spared_of_chain hhot (.inl hfuture) fun c hc y hy => ?_
    exact (hstays c hc y hy).poolAlive

/-- A run in which a computation waits for a second one by means of a mono, that one for a third by
means of a maybe, and the third for a fourth by means of a future. The first one is cancelled. -/
def threeLinks : List (Action Nat) :=
  [.addPool { threadName := "worker", workers := 1 }, .borrow "scope" 0,
    .reserve 0 none "a" (.await .mono 0 (.await .maybe 0 (.await .spawn 0
      (.gate "door" (.finish (.value 7))) (.finish (.value 3))) (.finish (.value 2)))
      (.finish (.value 1))),
    .use 0 .spawn, .testClosed 0, .spawn 0, .letGo 0, .resume 0, .step 0,
    .testClosed 1, .spawn 1, .letGo 1, .step 0, .resume 1, .step 1,
    .testClosed 2, .spawn 2, .letGo 2, .step 1, .resume 2, .step 2,
    .testClosed 3, .spawn 3, .letGo 3, .step 2, .resume 3, .step 3, .cancel 0]

/-- The abort reaches the second and the third computation, and spares the fourth. -/
theorem cascade_threeLinks : ∃ a b c d, (run {} threeLinks).reservations = [a, b, c, d] ∧
    a.aborted = true ∧ cold [(.mono, 1), (.maybe, 2), (.spawn, 3)] = [1, 2] ∧
    hot [(.mono, 1), (.maybe, 2), (.spawn, 3)] = [3] ∧
    Cascade threeLinks 0 [(.mono, 1), (.maybe, 2), (.spawn, 3)] :=
  ⟨_, _, _, _, rfl, rfl, rfl, rfl,
    cascade_run (.cons rfl rfl rfl (.cons rfl rfl rfl (.cons rfl rfl rfl (.nil 3)))) rfl rfl⟩

end System

end Deferral
