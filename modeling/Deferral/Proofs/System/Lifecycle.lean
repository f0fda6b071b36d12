import Deferral.Proofs.System.Holders

/-!
# The life of a scope

A scope is made open, and is closed once at most, by the first call of shutdown. A launch that
begins after that is refused. A scope that was made with a pool of its own has it until it was shut
down or nobody refers to it any more, and then the pool is shut down once. Who refers to it is told
by `Holders`.

Main statements:
* `standing_run`: in every run, a scope stands as the call of shutdown says that has closed it.
* `calls_run`: further calls change nothing.
* `refused_run`: a launch that begins on a closed scope is refused.
* `lifecycle_run`: what a caller can rely on with a scope, after any run.
-/

namespace Deferral

variable {V : Type}

/-- The computation was not launched before its scope was closed: it is not launched at all, or is
refused. -/
inductive Reservation.Late (x : Reservation V) : Prop
  /-- It is not launched. -/
  | unlaunched (hlaunches : x.launches = 0) : Late x
  /-- Its launch has begun, and will find the scope closed. -/
  | launching (hphase : x.phase = .launching) : Late x
  /-- Its launch has found the scope closed. -/
  | refused (hphase : x.phase = .dropped) (hrefused : x.Refused) : Late x

/-- How a scope stands that was made with the pool `pool?`, its own if it was `built`, and closed by
the call of shutdown `call?`, if there was one. -/
structure Scope.Standing (scope : Scope) (built : Bool) (call? : Option Closing) (pool? : Option Pool) :
    Prop where
  /-- It is closed if there was a call of shutdown. -/
  closed_eq : scope.closed = call?.isSome
  /-- Only the call that has closed it goes on to shut its pool down. -/
  call_eq : ∀ closing, scope.closing = some closing → call? = some closing
  /-- It has its pool exactly if it was built with one, somebody refers to it, and it is open or the
  call of shutdown is about to take the pool out. -/
  owns_iff : scope.owns = true ↔ built = true ∧ 0 < scope.references ∧
    (scope.closed = false ∨ scope.closing.isSome = true)
  /-- A pool that was taken out was taken out by the call of shutdown, or with the
  last reference. -/
  taken : built = true → scope.owns = false →
    call?.isSome = true ∧ scope.closing = none ∨ call? = none ∧ scope.references = 0
  /-- It was shut down once then, as the call has asked for, and otherwise in the background. A pool
  that is there was not shut down. -/
  stops : built = true → ∃ pool, pool? = some pool ∧ pool.forScope = true ∧
    pool.stops = if scope.owns then [] else [call?.elim .background Closing.stop]
  /-- Only a call from outside all pools waits for what is running. -/
  blocking : built = true → ∀ pool limit, pool? = some pool → .blocking limit ∈ pool.stops →
    ∃ closing, call? = some closing ∧ closing.inside = false ∧ closing.limit = limit

/-- Only a call from outside all pools waits for what is running. -/
theorem Record.exists_of_stop_eq {record : Record} {limit : Duration}
    (h : record.stop = .blocking limit) :
    ∃ closing, record.shutBy = some closing ∧ closing.inside = false ∧ closing.limit = limit := by
  rcases hcall : record.shutBy with _ | closing
  · rw [Record.stop, hcall] at h
    cases h
  · rw [Record.stop, hcall, Option.elim_some, Closing.stop] at h
    split at h
    next => cases h
    next houtside => exact ⟨closing, rfl, Bool.eq_false_iff.mpr houtside, Stop.blocking.inj h⟩

/-- A pool that is not there any more was taken out by a call of shutdown, or with the last
reference. -/
theorem Scope.Counted.taken {scope : Scope} {n : Nat} {record : Record}
    (h : scope.Counted n (some record)) (hbuilt : record.built = true)
    (hgone : scope.owns = false) :
    record.shutBy.isSome = true ∧ scope.closing = none ∨
      record.shutBy = none ∧ scope.references = 0 := by
  have hnever : 0 < scope.references →
      ¬(scope.closed = false ∨ scope.closing.isSome = true) := by
    intro hpos hstill
    cases hgone.symm.trans (h.owns_of_built record rfl hbuilt hpos hstill)
  have hclosed := h.closed_eq record rfl
  cases hcall : record.shutBy with
  | none =>
    -- The scope is open, so only the references can be missing.
    rw [hcall] at hclosed
    refine .inr ⟨rfl, ?_⟩
    by_contra hreferred
    exact hnever (Nat.pos_of_ne_zero hreferred) (.inl hclosed)
  | some closing =>
    refine .inl ⟨rfl, ?_⟩
    -- A shutdown under way would refer to the scope, which then would have its pool.
    by_contra hunderWay
    have hsome : scope.closing.isSome = true := Option.isSome_iff_ne_none.mpr hunderWay
    have hreferences := h.references_eq
    rw [if_pos hsome] at hreferences
    exact hnever (by omega) (.inr hsome)

namespace System

variable {w w' : System V} {s : ScopeId} {a : Action V} {r : ReservationId} {x x' : Reservation V}

/-! ## Calls of shutdown -/

/-- A run without a call of shutdown that closes the scope, and one with such a call. -/
theorem shutBy?_cases (s : ScopeId) (w : System V) (actions : List (Action V)) :
    (∀ n, shutBy? s w (actions.take n) = none) ∨
      ∃ before a after closing, actions = before ++ a :: after ∧
        (w.run before).shuts? s a = some closing ∧
        ∀ n, shutBy? s w (actions.take n) = if before.length < n then some closing else none := by
  induction actions generalizing w with
  | nil => exact .inl fun n => by rw [List.take_nil, shutBy?]
  | cons a actions ih =>
    -- Either the first action closes the scope, or the first one that does is further on.
    rcases hshuts : w.shuts? s a with _ | closing
    · have hlater (n : Nat) :
          shutBy? s w ((a :: actions).take (n + 1)) = shutBy? s (w.act a) (actions.take n) := by
        rw [List.take_succ_cons, shutBy?, hshuts, Option.none_or]
      rcases ih (w.act a) with hnone | ⟨before, b, after, closing, rfl, hcall, htake⟩
      · refine .inl fun n => ?_
        cases n with
        | zero => rfl
        | succ n => rw [hlater, hnone]
      · refine .inr ⟨a :: before, b, after, closing, rfl, hcall, fun n => ?_⟩
        cases n with
        | zero => rfl
        | succ n => rw [hlater, htake, List.length_cons]; simp
    · refine .inr ⟨[], a, actions, closing, rfl, hshuts, fun n => ?_⟩
      cases n with
      | zero => rfl
      | succ n => rw [List.take_succ_cons, shutBy?, hshuts, Option.some_or]; simp

/-- In every run, a scope that was open agrees with what is on record of it since. If it had a pool
of its own, that was shut down once, and as the record says, or the scope has it still. -/
theorem counted_run {actions further : List (Action V)} {scope scope' : Scope}
    (hscope : (run {} actions).scopes[s]? = some scope) (hopen : scope.closed = false)
    (hscope' : ((run {} actions).run further).scopes[s]? = some scope') {record : Record}
    (hrecord : record = { built := scope.owns, shutBy := shutBy? s (run {} actions) further }) :
    scope'.Counted (((run {} actions).run further).references.count s) (some record) ∧
      (scope.owns = true → ∃ pool, ((run {} actions).run further).pools[scope'.pool]? = some pool ∧
        pool.forScope = true ∧ pool.stops = if scope'.owns then [] else [record.stop]) := by
  have hledger : (run {} actions).ledger s = some { built := scope.owns } := by
    rw [ledger, hscope, Option.bind_some, if_neg (by simp [hopen])]
  have hbalanced := (balanced_run actions).follow.run (valid_run actions) further
  have hentered : enteredAll (run {} actions).ledger (run {} actions) further s = some record := by
    rw [enteredAll, hledger, hrecord]
    rfl
  -- The counts are those on record; the pool is alive as long as the scope has it.
  refine ⟨?_, fun hown => ?_⟩
  · have hcounted := hbalanced.counted s scope' hscope'
    rwa [List.append_nil, hentered] at hcounted
  · cases hown' : scope'.owns with
    | true =>
      obtain ⟨pool, hpool, hkind, halive⟩ := hbalanced.alive s scope' hscope' hown'
      exact ⟨pool, hpool, hkind, List.isEmpty_iff.mp halive⟩
    | false =>
      exact hbalanced.taken s scope' record hscope' hentered (hrecord ▸ hown) hown'

/-- In every run, a scope that was open is referred to by those who should. -/
theorem holders_run {actions further : List (Action V)} {scope scope' : Scope}
    (hscope : (run {} actions).scopes[s]? = some scope) (hopen : scope.closed = false)
    (hscope' : ((run {} actions).run further).scopes[s]? = some scope') :
    Holders s ((run {} actions).run further) scope' := by
  obtain ⟨hcounted, -⟩ := counted_run hscope hopen hscope' rfl
  rw [← run_append] at hscope' hcounted ⊢
  exact holders_of_counted hscope' hcounted

/-- In every run, a scope that was open stands as the call says that has closed it since. -/
theorem standing_run {actions further : List (Action V)} {scope scope' : Scope}
    (hscope : (run {} actions).scopes[s]? = some scope) (hopen : scope.closed = false)
    (hscope' : ((run {} actions).run further).scopes[s]? = some scope') :
    scope'.Standing scope.owns (shutBy? s (run {} actions) further)
      ((run {} actions).run further).pools[scope'.pool]? := by
  obtain ⟨hcounted, hpool⟩ := counted_run hscope hopen hscope' rfl
  refine ⟨hcounted.closed_eq _ rfl, hcounted.closing_eq _ rfl, ⟨?_, ?_⟩, ?_, hpool, ?_⟩
  · intro hown
    obtain ⟨scope₀, hscope₀, haged⟩ := (ages_run (run {} actions) further).exists_scope hscope
    obtain rfl := Option.some.inj (hscope₀.symm.trans hscope')
    exact ⟨haged.owns hown, hcounted.of_owns hown⟩
  · rintro ⟨hbuilt, hpos, hstill⟩
    exact hcounted.owns_of_built _ rfl hbuilt hpos hstill
  · intro hbuilt hgone
    exact hcounted.taken hbuilt hgone
  · intro hbuilt pool limit hat hstop
    obtain ⟨pool', hat', -, hstops⟩ := hpool hbuilt
    obtain rfl := Option.some.inj (hat.symm.trans hat')
    rw [hstops] at hstop
    split at hstop
    next => cases hstop
    next => exact Record.exists_of_stop_eq (List.mem_singleton.mp hstop).symm

/-- A call of shutdown leaves the scope closed. -/
theorem isClosed_beginShutdown {scope : Scope} (hscope : w.scopes[s]? = some scope)
    (closing : Closing) : (w.beginShutdown s closing).isClosed s = true := by
  simp only [beginShutdown, hscope]
  split
  next hclosed => rwa [isClosed, hscope, Option.any_some]
  next =>
    rw [isClosed, retain, updateScope, updateScope, List.modify_modify_eq, List.getElem?_modify_eq,
      hscope]
    rfl

/-- A call of shutdown that a caller makes leaves the scope closed. -/
theorem isClosed_act_beginShutdown (hw : w.Valid) (hheld : s ∈ w.held) (closing : Closing) :
    (w.act (.beginShutdown s closing)).isClosed s = true := by
  rw [act, if_pos hheld]
  exact isClosed_beginShutdown (List.getElem?_eq_getElem (hw.held_lt s hheld)) closing

/-- A call of shutdown that a computation makes leaves the scope closed. -/
theorem isClosed_act_step {rest : Computation ScopeId V} (hw : w.Valid)
    (hx : w.reservations[r]? = some x) (hphase : x.phase = .active .step)
    (hrest : x.rest = .shutdown s rest) : (w.act (.step r)).isClosed s = true := by
  have hlt : s < w.scopes.length := by
    refine hw.scope_lt r x hx s (List.mem_cons_of_mem _ ?_)
    rw [hrest]
    exact List.mem_cons_self
  have hscope := List.getElem?_eq_getElem hlt
  cases hclosed : w.isClosed s with
  | true => exact isClosed_run hclosed [.step r]
  | false =>
    have hstep : w.act (.step r) =
        (w.beginShutdown s { limit := w.scopes[s].grace, inside := true }).setPhase r
          (.active .closing) := by
      simp [act, step, hx, canStep, hphase, takeStep, hrest, hclosed, hscope]
    rw [hstep]
    exact isClosed_beginShutdown hscope _

/-- A call of shutdown as a whole leaves the scope closed. -/
theorem isClosed_shutdown {scope : Scope} (hscope : w.scopes[s]? = some scope)
    (limit : Option Duration) (inside : Bool) : (w.shutdown s limit inside).isClosed s = true := by
  simp only [shutdown, hscope]
  split
  next hclosed => rwa [isClosed, hscope, Option.any_some]
  next => exact isClosed_run (isClosed_beginShutdown hscope _) [.finishShutdown s]

/-- A change of a scope that leaves its shutdown alone. -/
theorem closing_updateScope {f : Scope → Scope} (hf : ∀ scope, (f scope).closing = scope.closing)
    (s t : ScopeId) (w : System V) :
    ((w.updateScope s f).scopes[t]?).bind Scope.closing = (w.scopes[t]?).bind Scope.closing := by
  rw [updateScope, List.getElem?_modify]
  rcases w.scopes[t]? with _ | scope
  · rfl
  · by_cases ht : s = t
    · simp [ht, hf]
    · simp [ht]

/-- The pool is taken out by a shutdown that goes on. -/
theorem closing_takePool (s t : ScopeId) (stop : Stop) (w : System V) :
    ((w.takePool s stop).scopes[t]?).bind Scope.closing = (w.scopes[t]?).bind Scope.closing := by
  unfold takePool
  split
  next =>
    split
    next => exact closing_updateScope (f := fun x => { x with owns := false }) (fun _ => rfl) s t w
    next => rfl
  next => rfl

/-- A reference that is dropped ends no shutdown. -/
theorem closing_release (s t : ScopeId) (w : System V) :
    ((w.release s).scopes[t]?).bind Scope.closing = (w.scopes[t]?).bind Scope.closing := by
  have hupdate := closing_updateScope (f := fun x => { x with references := x.references - 1 })
    (fun _ => rfl) s t w
  simp only [release]
  split
  next =>
    split
    next => rw [closing_takePool, hupdate]
    next => exact hupdate
  next => exact hupdate

/-- A shutdown that is carried to its end is no longer under way. -/
theorem closing_finishShutdown (s : ScopeId) (w : System V) :
    ((w.finishShutdown s).scopes[s]?).bind Scope.closing = none := by
  unfold finishShutdown
  split
  next closing _ =>
    rw [closing_release, updateScope, List.getElem?_modify_eq]
    rcases (w.takePool s closing.stop).scopes[s]? with _ | scope <;> rfl
  next hnone => exact hnone

/-! ## Launches on a closed scope -/

/-- On a closed scope, a computation that was not launched before is refused by its launch. -/
theorem Change.late (h : w.Change r a x x') (hclosed : w.isClosed x.scope = true) (hsound : x.Sound)
    (hx : x.Late) : x'.Late := by
  have hsound' := hsound.change h
  cases hx with
  | unlaunched hzero =>
    -- Only the launch itself counts.
    by_cases hlaunch : x'.phase = .launching
    · exact .launching hlaunch
    · refine .unlaunched ?_
      cases h with
      | launch => exact absurd rfl hlaunch
      | handle | attach | refuse | clear | clearDirectly | queue | lose | letGo | abort | discard
      | start | advance | pause | engage | finish | drop => exact hzero
  | launching hphase =>
    obtain ⟨_, _, _, rfl⟩ | ⟨-, rfl⟩ | ⟨hopen, -⟩ := h.cases_of_launching hphase
    · exact .launching hphase
    · refine .refused rfl (hsound'.refused_of_mem ?_)
      exact List.mem_append_right _ (List.mem_singleton.mpr rfl)
    · cases hclosed.symm.trans hopen
  | refused hphase hrefused =>
    obtain ⟨_, _, _, rfl⟩ := h.exists_eq_of_isOver (by rw [hphase]; rfl)
    exact .refused hphase ⟨hrefused.outcomes_eq, hrefused.position_eq, hrefused.events_eq⟩

/-- In every run, a computation that was not launched before its scope was closed is refused by its
launch. -/
theorem late_run {actions further : List (Action V)}
    (hclosed : (run {} actions).isClosed s = true)
    (hbefore : ∀ x, (run {} actions).reservations[r]? = some x → x.launches = 0)
    (hx' : ((run {} actions).run further).reservations[r]? = some x') (hs : x'.scope = s) :
    x'.Late := by
  induction hx' using run_induction with
  | start hx' => exact .unlaunched (hbefore _ hx')
  | new _ _ hnew =>
    cases hnew with
    | reserve => exact .unlaunched rfl
    | await => exact .launching rfl
  | @act further a _ x _ hx hchanges ih =>
    have hgrows := Changes.grows hchanges
    have hscope : x.scope = s := hgrows.scope_eq.symm.trans hs
    have hstill : ((run {} actions).run further).isClosed x.scope = true := by
      rw [hscope]
      exact isClosed_run hclosed further
    have hsound : x.Sound := by
      rw [← run_append] at hx
      exact sound_run hx
    -- The scope of a reservation does not change, so that each change finds it closed.
    exact (Changes.preserve (P := fun y => y.scope = x.scope ∧ y.Sound ∧ y.Late)
      (fun y y' hchange hy => ⟨hchange.grows.scope_eq.trans hy.1, hy.2.1.change hchange,
        hchange.late (hy.1 ▸ hstill) hy.2.1 hy.2.2⟩) hchanges ⟨rfl, hsound, ih hscope⟩).2.2

/-- In every run, a launch that begins after the scope was closed is refused without a step, at the
latest when it looks at the scope. -/
theorem refused_run {actions further : List (Action V)}
    (hclosed : (run {} actions).isClosed s = true)
    (hbefore : ∀ x, (run {} actions).reservations[r]? = some x → x.launches = 0)
    (hx' : ((run {} actions).run further).reservations[r]? = some x') (hs : x'.scope = s)
    (hlaunched : x'.launches ≠ 0) :
    x'.phase = .dropped ∧ x'.Refused ∨
      x'.phase = .launching ∧ x'.position = 0 ∧ x'.outcomes = [] ∧
        ∃ y, (((run {} actions).run further).act (.testClosed r)).reservations[r]? = some y ∧
          y.phase = .dropped ∧ y.Refused := by
  have hlater := isClosed_run hclosed further
  have hsound : x'.Sound := by
    rw [← run_append] at hx'
    exact sound_run hx'
  cases late_run hclosed hbefore hx' hs with
  | unlaunched hzero => exact absurd hzero hlaunched
  | refused hphase hrefused => exact .inl ⟨hphase, hrefused⟩
  | launching hphase =>
    -- The launch has begun, but has not looked yet; its next step finds the scope closed.
    have hlooked := getElem?_testClosed hx' hphase
    rw [hs, hlater, if_pos rfl] at hlooked
    refine .inr ⟨hphase, (hsound.fresh (by rw [hphase]; rfl)).1,
      hsound.running (by rw [hphase]; rfl), _, hlooked, rfl, ?_⟩
    have hsound' : (x'.conclude .dropped .dropped (.error .scopeClosed)).Sound :=
      hsound.change (.refuse rfl hx' hphase (by rw [hs]; exact hlater))
    exact hsound'.refused_of_mem (List.mem_append_right _ (List.mem_singleton.mpr rfl))

/-! ## From the making of a scope on -/

/-- By the action `a` the scope `s` is made, with a pool of its own if it is `built`. -/
inductive Made (w : System V) : Action V → ScopeId → Bool → Prop
  /-- It is built, with its pool. -/
  | build {settings : Settings} {s : ScopeId} {w' : System V}
      (hbuild : w.build settings = .built s w') : Made w (.build settings) s true
  /-- It is made on a pool that stays with its owner. -/
  | borrow {name : String} {p : PoolId} (hp : p < w.pools.length) :
      Made w (.borrow name p) w.scopes.length false

/-- A scope that is made is open, and has the pool that is made for it. -/
theorem Made.exists_scope {built : Bool} (h : w.Made a s built) :
    ∃ scope, (w.act a).scopes[s]? = some scope ∧ scope.owns = built ∧ scope.closed = false := by
  cases h with
  | build hbuild =>
    rw [act, hbuild]
    obtain ⟨pool, -, -, rfl, rfl⟩ := eq_of_build w hbuild
    exact ⟨_, List.getElem?_concat_length .., rfl, rfl⟩
  | borrow hp =>
    rw [act, if_pos hp]
    exact ⟨_, List.getElem?_concat_length .., rfl, rfl⟩

/-- What calls of shutdown do with the scope `s`, which is `scope`. -/
structure Calls (s : ScopeId) (scope : Scope) (w : System V) : Prop where
  /-- A further call changes nothing. -/
  beginShutdown : scope.closed = true → ∀ closing, w.act (.beginShutdown s closing) = w
  /-- Nor does such a call as a whole. -/
  shutdown : scope.closed = true → ∀ limit inside, w.shutdown s limit inside = w
  /-- Nor does a call that is over. -/
  finishShutdown : scope.closing = none → w.act (.finishShutdown s) = w
  /-- A computation that makes a further call goes on to its next step. -/
  step : scope.closed = true → ∀ p x rest, w.reservations[p]? = some x → x.phase = .active .step →
    x.rest = .shutdown s rest → w.act (.step p) = w.advance p [s] rest []
  /-- After a call the scope is closed, whether or not it was closed by it. -/
  isClosed_beginShutdown : s ∈ w.held → ∀ closing, (w.act (.beginShutdown s closing)).isClosed s = true
  /-- So it is after a call that a computation makes. -/
  isClosed_step : ∀ p x rest, w.reservations[p]? = some x → x.phase = .active .step →
    x.rest = .shutdown s rest → (w.act (.step p)).isClosed s = true
  /-- The call that has closed the scope takes the pool out when it is carried on. -/
  finishes : scope.closed = true → ∃ scope', (w.act (.finishShutdown s)).scopes[s]? = some scope' ∧
    scope'.closing = none ∧ scope'.owns = false

/-- What can be relied on with the scope `s`, which is `scope` after the `actions`. It was made
before them, with a pool of its own if it was `built`. -/
structure Lifecycle (s : ScopeId) (built : Bool) (w : System V) (actions : List (Action V))
    (scope : Scope) : Prop where
  /-- It is never closed, or is closed by one call of shutdown, and from then on. -/
  closes : (∀ n, (w.run (actions.take n)).isClosed s = false) ∨
    ∃ before a after, actions = before ++ a :: after ∧ ((w.run before).shuts? s a).isSome = true ∧
      ∀ n, (w.run (actions.take n)).isClosed s = decide (before.length < n)
  /-- It has its pool, or this was shut down once, as the call says that has closed the scope. -/
  standing : scope.Standing built (shutBy? s w actions) (w.run actions).pools[scope.pool]?
  /-- Its references are those of the callers, reservations and computations that refer to it. -/
  holders : Holders s (w.run actions) scope
  /-- It never gets its pool back. -/
  owns_of_take : ∀ n scope', (w.run (actions.take n)).scopes[s]? = some scope' →
    scope'.owns = false → scope.owns = false
  /-- Further calls of shutdown change nothing. -/
  calls : (w.run actions).Calls s scope
  /-- A launch that begins after the scope was closed is refused without a step, unless it is still
  about to look; then it is refused when it does. -/
  refuses : scope.closed = true → ∀ further r x',
    (∀ x, (w.run actions).reservations[r]? = some x → x.launches = 0) →
    ((w.run actions).run further).reservations[r]? = some x' → x'.scope = s → x'.launches ≠ 0 →
      x'.phase = .dropped ∧ x'.Refused ∨
      x'.phase = .launching ∧ x'.position = 0 ∧ x'.outcomes = [] ∧
        ∃ y, (((w.run actions).run further).act (.testClosed r)).reservations[r]? = some y ∧
          y.phase = .dropped ∧ y.Refused

/-- In every run, further calls of shutdown change nothing. -/
theorem calls_run {actions further : List (Action V)} {scope scope' : Scope}
    (hscope : (run {} actions).scopes[s]? = some scope) (hopen : scope.closed = false)
    (hscope' : ((run {} actions).run further).scopes[s]? = some scope') :
    ((run {} actions).run further).Calls s scope' := by
  have hclosed_eq : ((run {} actions).run further).isClosed s = scope'.closed := by
    rw [isClosed, hscope', Option.any_some]
  have hvalid := (valid_run actions).run further
  refine ⟨?_, ?_, ?_, ?_, ?_, ?_, ?_⟩
  · intro hclosed closing
    rw [act]
    split
    next => exact beginShutdown_of_isClosed (hclosed_eq.trans hclosed)
    next => rfl
  · intro hclosed limit inside
    simp only [shutdown, hscope', hclosed, if_true]
  · intro hover
    simp only [act, finishShutdown, hscope', Option.bind_some, hover]
  · intro hclosed p x rest hx hphase hrest
    simp [act, step, hx, canStep, hphase, takeStep, hrest, hclosed_eq, hclosed]
  · intro hheld closing
    exact isClosed_act_beginShutdown hvalid hheld closing
  · intro p x rest hx hphase hrest
    exact isClosed_act_step hvalid hx hphase hrest
  · intro hclosed
    obtain ⟨scope₁, hscope₁, haged⟩ :=
      (ages_act ((run {} actions).run further) (.finishShutdown s)).exists_scope hscope'
    have hover : scope₁.closing = none := by
      have hfinished := closing_finishShutdown s ((run {} actions).run further)
      rwa [← act, hscope₁, Option.bind_some] at hfinished
    refine ⟨scope₁, hscope₁, hover, ?_⟩
    -- It is closed and no call is under way, so that the pool is not there any more.
    rw [← run_concat] at hscope₁
    by_contra hown
    obtain ⟨-, -, hopen | hsome⟩ :=
      (standing_run hscope hopen hscope₁).owns_iff.mp (eq_true_of_ne_false hown)
    · cases hopen.symm.trans (haged.closed hclosed)
    · rw [hover] at hsome
      cases hsome

/-- The life of a scope. However callers and computations share, drop and shut down a scope, from
the moment of its making it is closed once at most, its pool is taken out once at most, and launches
that begin on it afterwards are refused. -/
theorem lifecycle_run {early : List (Action V)} {built : Bool} (hmade : (run {} early).Made a s built)
    (actions : List (Action V)) :
    ∃ scope, (((run {} early).act a).run actions).scopes[s]? = some scope ∧
      Lifecycle s built ((run {} early).act a) actions scope := by
  obtain ⟨scope₀, hscope₀, rfl, hopen⟩ := hmade.exists_scope
  have hrun : (run {} early).act a = run {} (early ++ [a]) := by
    rw [run_concat]
  rw [hrun] at hscope₀ ⊢
  obtain ⟨scope, hscope, -⟩ := (ages_run (run {} (early ++ [a])) actions).exists_scope hscope₀
  refine ⟨scope, hscope, ?_, standing_run hscope₀ hopen hscope, holders_run hscope₀ hopen hscope,
    ?_, calls_run hscope₀ hopen hscope, ?_⟩
  · have hclosed (n : Nat) : ((run {} (early ++ [a])).run (actions.take n)).isClosed s =
        (shutBy? s (run {} (early ++ [a])) (actions.take n)).isSome := by
      obtain ⟨scope', hscope', -⟩ :=
        (ages_run (run {} (early ++ [a])) (actions.take n)).exists_scope hscope₀
      rw [isClosed, hscope', Option.any_some, (standing_run hscope₀ hopen hscope').closed_eq]
    rcases shutBy?_cases s (run {} (early ++ [a])) actions with
      hnone | ⟨before, b, after, closing, hsplit, hcall, htake⟩
    · refine .inl fun n => ?_
      rw [hclosed, hnone]
      rfl
    · refine .inr ⟨before, b, after, hsplit, by rw [hcall]; rfl, fun n => ?_⟩
      rw [hclosed, htake]
      by_cases hn : before.length < n <;> simp [hn]
  · intro n scope' hscope' hgone
    -- What comes after the first actions is a run from there.
    have hlater := ages_run ((run {} (early ++ [a])).run (actions.take n)) (actions.drop n)
    rw [← run_append (run {} (early ++ [a])), List.take_append_drop] at hlater
    obtain ⟨scope₁, hscope₁, haged⟩ := hlater.exists_scope hscope'
    obtain rfl := Option.some.inj (hscope.symm.trans hscope₁)
    by_contra hown
    cases hgone.symm.trans (haged.owns (eq_true_of_ne_false hown))
  · intro hclosed further r x'
    rw [← run_append {} (early ++ [a]) actions] at hscope ⊢
    exact refused_run (by rwa [isClosed, hscope, Option.any_some])

/-- What happens to a scope with two references that is shut down from outside its pool, and once
more from inside before the first call is over. A computation is started on it afterwards. -/
def shutTwice : List (Action Nat) :=
  [.share 0, .reserve 0 none "a" (.finish (.value 7)),
    .beginShutdown 0 { limit := .zero, inside := false },
    .beginShutdown 0 { limit := .zero, inside := true }, .finishShutdown 0, .unshare 0,
    .use 0 .spawn, .testClosed 0]

/-- The pool is shut down once, as the first call asks for, and the computation is refused. -/
theorem lifecycle_shutTwice : ∃ scope pool x,
    (({} : System Nat).act (.build {})).run shutTwice =
      { scopes := [scope], pools := [pool], reservations := [x], held := [0] } ∧
    scope.closed = true ∧ scope.owns = false ∧ pool.stops = [.blocking .zero] ∧
    x.outcomes = [.error .scopeClosed] ∧
    ∃ scope', ((({} : System Nat).act (.build {})).run shutTwice).scopes[0]? = some scope' ∧
      Lifecycle 0 true (({} : System Nat).act (.build {})) shutTwice scope' :=
  ⟨_, _, _, rfl, rfl, rfl, rfl, rfl,
    lifecycle_run (show (run {} []).Made (.build {}) 0 true from .build rfl) shutTwice⟩

end System

end Deferral
