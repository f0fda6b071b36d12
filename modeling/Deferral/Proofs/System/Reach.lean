import Deferral.Proofs.System.Holding
import Deferral.Proofs.System.Rest

/-!
# How far actions reach

A shutdown of a scope, and the loss of a reference to it, change this scope and the pool that it
has, and nothing else (`Confined`). When a task is dropped with what it holds, that is so for
every scope that its computation still mentions, and the handle of the reservation that it
awaits goes with it.

Main statements:
* `Confined.finishShutdown`, `Confined.release`, `Confined.dropTask`: how far operations reach.
* `Touches.confined`: how far the actions reach that shut scopes down or drop references to them.
-/

namespace Deferral.System

variable {V : Type} {w w' w'' : System V} {S : List ScopeId} {R : List ReservationId}
  {s t : ScopeId} {r : ReservationId} {x x' : Reservation V} {a : Action V}

/-! ## How far operations reach -/

/-- The systems agree in everything but the scopes in `S`, the pools that these have of their own,
and the reservations in `R`. -/
structure Confined (S : List ScopeId) (R : List ReservationId) (w w' : System V) : Prop where
  /-- What can change of scopes and pools is whether they are shut down. -/
  ages : Ages w w'
  /-- The time of day is the same. -/
  clock_eq : w'.clock = w.clock
  /-- The same gates are open. -/
  gates_eq : w'.gates = w.gates
  /-- A scope keeps its name, its pool and its grace. -/
  scope_eq : ∀ (t : ScopeId) (scope' : Scope), w'.scopes[t]? = some scope' →
    ∃ scope, w.scopes[t]? = some scope ∧ scope'.name = scope.name ∧ scope'.pool = scope.pool ∧
      scope'.grace = scope.grace
  /-- All other scopes are the same. -/
  scopes_eq : ∀ t, t ∉ S → w'.scopes[t]? = w.scopes[t]?
  /-- All other pools are the same. -/
  pools_eq : ∀ p, (∀ t ∈ S, ∀ scope, w.scopes[t]? = some scope → scope.owns = true →
    scope.pool ≠ p) → w'.pools[p]? = w.pools[p]?
  /-- All other reservations are the same. -/
  reservations_eq : ∀ r, r ∉ R → w'.reservations[r]? = w.reservations[r]?
  /-- Callers hold the same references to all other scopes. -/
  count_held_eq : ∀ t, t ∉ S → w'.held.count t = w.held.count t

/-- None of the scopes in `S` has the pool of the scope `t`. -/
def Elsewhere (S : List ScopeId) (t : ScopeId) (w : System V) : Prop :=
  ∀ s ∈ S, ∀ (scope scope' : Scope), w.scopes[s]? = some scope → scope.owns = true →
    w.scopes[t]? = some scope' → scope.pool ≠ scope'.pool

namespace Confined

theorem refl (S : List ScopeId) (R : List ReservationId) (w : System V) : Confined S R w w where
  ages := .refl w
  clock_eq := rfl
  gates_eq := rfl
  scope_eq _ scope h := ⟨scope, h, rfl, rfl, rfl⟩
  scopes_eq _ _ := rfl
  pools_eq _ _ := rfl
  reservations_eq _ _ := rfl
  count_held_eq _ _ := rfl

/-- One thing happens after the other. -/
theorem trans (h : Confined S R w w') (h' : Confined S R w' w'') : Confined S R w w'' where
  ages := h.ages.trans h'.ages
  clock_eq := h'.clock_eq.trans h.clock_eq
  gates_eq := h'.gates_eq.trans h.gates_eq
  scope_eq t scope'' hscope'' := by
    obtain ⟨scope', hscope', hname', hpool', hgrace'⟩ := h'.scope_eq t scope'' hscope''
    obtain ⟨scope, hscope, hname, hpool, hgrace⟩ := h.scope_eq t scope' hscope'
    exact ⟨scope, hscope, hname'.trans hname, hpool'.trans hpool, hgrace'.trans hgrace⟩
  scopes_eq t ht := (h'.scopes_eq t ht).trans (h.scopes_eq t ht)
  pools_eq p hp := by
    refine (h'.pools_eq p fun t ht scope' hscope' hown' => ?_).trans (h.pools_eq p hp)
    -- A scope that has its pool had it before.
    obtain ⟨scope, hscope, -, hpool, -⟩ := h.scope_eq t scope' hscope'
    obtain ⟨scope₁, hscope₁, hages⟩ := h.ages.exists_scope hscope
    obtain rfl := Option.some.inj (hscope'.symm.trans hscope₁)
    rw [hpool]
    exact hp t ht scope hscope (hages.owns hown')
  reservations_eq r hr := (h'.reservations_eq r hr).trans (h.reservations_eq r hr)
  count_held_eq t ht := (h'.count_held_eq t ht).trans (h.count_held_eq t ht)

/-! ### Operations on scopes and pools -/

/-- A scope changes by ageing, and some pool that it has of its own, if any. -/
theorem of_modify {f : Scope → Scope} (hs : s ∈ S) (hages : Ages w w')
    (hf : ∀ scope, (f scope).name = scope.name ∧ (f scope).pool = scope.pool ∧
      (f scope).grace = scope.grace)
    (hscopes : w'.scopes = w.scopes.modify s f)
    (hpools : ∀ p, (∀ scope, w.scopes[s]? = some scope → scope.owns = true → scope.pool ≠ p) →
      w'.pools[p]? = w.pools[p]?)
    (hrest : w' = { w with scopes := w'.scopes, pools := w'.pools }) : Confined S R w w' where
  ages := hages
  clock_eq := by rw [hrest]
  gates_eq := by rw [hrest]
  scope_eq t scope' hscope' := by
    rw [hscopes, List.getElem?_modify] at hscope'
    obtain ⟨scope, hscope, rfl⟩ := Option.map_eq_some_iff.mp hscope'
    refine ⟨scope, hscope, ?_⟩
    split
    · exact hf scope
    · exact ⟨rfl, rfl, rfl⟩
  scopes_eq t ht := by
    rw [hscopes]
    exact List.getElem?_modify_ne _ _ fun heq => ht (heq ▸ hs)
  pools_eq p hp := hpools p (hp s hs)
  reservations_eq r _ := by rw [hrest]
  count_held_eq t _ := by rw [hrest]

/-- A scope changes, but keeps its pool. -/
theorem updateScope {f : Scope → Scope} (hs : s ∈ S) (hages : ∀ scope : Scope, scope.Ages (f scope))
    (hf : ∀ scope, (f scope).name = scope.name ∧ (f scope).pool = scope.pool ∧
      (f scope).grace = scope.grace) :
    Confined S R w (w.updateScope s f) :=
  of_modify hs (.updateScope w s hages) hf rfl (fun _ _ => rfl) rfl

/-- The pool is taken out of a scope, if it is there. -/
theorem takePool (hs : s ∈ S) (stop : Stop) : Confined S R w (w.takePool s stop) := by
  have hages := Ages.operational.takePool w s stop
  unfold System.takePool at hages ⊢
  split
  next scope hscope =>
    split
    next hown =>
      rw [hscope] at hages
      simp only [hown, if_true] at hages
      refine of_modify (f := fun x => { x with owns := false }) hs hages
        (fun _ => ⟨rfl, rfl, rfl⟩) rfl (fun p hp => ?_) rfl
      exact List.getElem?_modify_ne _ _ (hp scope hscope hown)
    next => exact .refl S R w
  next => exact .refl S R w

theorem retain (hs : s ∈ S) : Confined S R w (w.retain s) :=
  updateScope hs (fun _ => ⟨rfl, id, id⟩) fun _ => ⟨rfl, rfl, rfl⟩

theorem release (hs : s ∈ S) : Confined S R w (w.release s) := by
  have hdrop :
      Confined S R w (w.updateScope s fun x => { x with references := x.references - 1 }) :=
    updateScope hs (fun _ => ⟨rfl, id, id⟩) fun _ => ⟨rfl, rfl, rfl⟩
  simp only [System.release]
  split
  next =>
    split
    · exact hdrop.trans (takePool hs _)
    · exact hdrop
  next => exact hdrop

theorem releaseAll {ss : List ScopeId} (hss : ∀ s ∈ ss, s ∈ S) :
    Confined S R w (w.releaseAll ss) := by
  induction ss generalizing w with
  | nil => exact .refl S R w
  | cons s ss ih =>
    exact (release (hss s List.mem_cons_self)).trans
      (ih fun t ht => hss t (List.mem_cons_of_mem _ ht))

/-- A call of shutdown closes its scope, and nothing else. -/
theorem beginShutdown (hs : s ∈ S) (closing : Closing) :
    Confined S R w (w.beginShutdown s closing) := by
  unfold System.beginShutdown
  split
  next =>
    split
    · exact .refl S R w
    · have hclose : Confined S R w
          (w.updateScope s fun x => { x with closed := true, closing := some closing }) :=
        updateScope hs (fun _ => ⟨rfl, fun _ => rfl, id⟩) fun _ => ⟨rfl, rfl, rfl⟩
      exact hclose.trans (retain hs)
  next => exact .refl S R w

/-- A call of shutdown takes out the pool that its scope has, and nothing else. -/
theorem finishShutdown (hs : s ∈ S) : Confined S R w (w.finishShutdown s) := by
  unfold System.finishShutdown
  split
  next closing _ =>
    have htake : Confined S R w (w.takePool s closing.stop) := takePool hs _
    have hcease : Confined S R (w.takePool s closing.stop)
        ((w.takePool s closing.stop).updateScope s fun x => { x with closing := none }) :=
      updateScope hs (fun _ => ⟨rfl, id, id⟩) fun _ => ⟨rfl, rfl, rfl⟩
    exact (htake.trans hcease).trans (release hs)
  next => exact .refl S R w

/-- A call of shutdown as a whole changes its scope and the pool that this has. -/
theorem shutdown (hs : s ∈ S) (limit : Option Duration) (inside : Bool) :
    Confined S R w (w.shutdown s limit inside) := by
  unfold System.shutdown
  split
  next =>
    split
    · exact .refl S R w
    · exact (beginShutdown hs _).trans (finishShutdown hs)
  next => exact .refl S R w

/-- A caller that drops its reference leaves those to other scopes alone. -/
theorem unshare (hs : s ∈ S) : Confined S R w (w.unshare s) := by
  unfold System.unshare
  split
  next =>
    have herase : Confined S R w { w with held := w.held.erase s } :=
      { refl S R w with
        ages := { Ages.refl w with held := fun t ht => .inl (List.mem_of_mem_erase ht) }
        count_held_eq := fun t ht => List.count_erase_of_ne fun heq : t = s => ht (heq ▸ hs) }
    exact herase.trans (release hs)
  next => exact .refl S R w

/-! ### Operations on reservations -/

/-- A reservation changes. -/
theorem update (hr : r ∈ R) (f : Reservation V → Reservation V) :
    Confined S R w (w.update r f) :=
  { refl S R w with
    ages := Ages.operational.update w r f
    reservations_eq := fun _ hq => List.getElem?_modify_ne _ _ fun heq => hq (heq ▸ hr) }

theorem advance {step : List ScopeId} {rest : Computation ScopeId V} {events : List (Event V)}
    (hr : r ∈ R) (hstep : ∀ s ∈ step, s ∈ S) : Confined S R w (w.advance r step rest events) :=
  (update hr _).trans (releaseAll hstep)

theorem conclude {phase : Phase} {event : Event V} (hr : r ∈ R)
    (hx : ∀ x, w.reservations[r]? = some x → x.mentions ⊆ S) :
    Confined S R w (w.conclude r phase event) := by
  unfold System.conclude
  split
  next x hr' => exact (update hr _).trans (releaseAll (hx x hr'))
  next => exact .refl S R w

theorem concludeWith {phase : Phase} {event : Event V} {o : Outcome V} (hr : r ∈ R)
    (hx : ∀ x, w.reservations[r]? = some x → x.mentions ⊆ S) :
    Confined S R w (w.concludeWith r phase event o) :=
  (conclude hr hx).trans (update hr _)

/-- A launch that is over drops the reference to its scope. -/
theorem letGo (hr : r ∈ R) (hx : ∀ x, w.reservations[r]? = some x → x.scope ∈ S) :
    Confined S R w (w.letGo r) := by
  unfold System.letGo
  split
  next x hr' =>
    split
    · exact (update hr _).trans (release (hx x hr'))
    · exact .refl S R w
  next => exact .refl S R w

/-- A reservation that was not launched is dropped, with its references. -/
theorem discard (hr : r ∈ R)
    (hx : ∀ x, w.reservations[r]? = some x → x.scope ∈ S ∧ x.mentions ⊆ S) :
    Confined S R w (w.discard r) := by
  unfold System.discard
  split
  next x hr' =>
    split
    · refine (conclude hr fun y hy => (hx y hy).2).trans (letGo hr fun y hy => ?_)
      rw [reservations_conclude, List.getElem?_modify_eq, hr'] at hy
      obtain rfl := Option.some.inj hy
      exact (hx x hr').1
    · exact .refl S R w
  next => exact .refl S R w

/-- A launch that finds its scope closed drops the computation, and otherwise goes on. -/
theorem testClosed (hr : r ∈ R) (hx : ∀ x, w.reservations[r]? = some x → x.mentions ⊆ S) :
    Confined S R w (w.testClosed r) := by
  unfold System.testClosed
  split
  next =>
    split
    · split
      · exact concludeWith hr hx
      · exact update hr _
    · exact .refl S R w
  next => exact .refl S R w

/-- A launch hands the computation to the pool, where it waits or is dropped. -/
theorem spawn (hr : r ∈ R) (hx : ∀ x, w.reservations[r]? = some x → x.mentions ⊆ S) :
    Confined S R w (w.spawn r) := by
  unfold System.spawn
  split
  next =>
    split
    · split
      · exact update hr _
      · refine (update hr _).trans (concludeWith hr fun y hy => ?_)
        -- What is noted of the task does not show in what it mentions.
        rw [reservations_update, List.getElem?_modify_eq] at hy
        obtain ⟨z, hz, rfl⟩ := Option.map_eq_some_iff.mp hy
        exact hx z hz
    · exact .refl S R w
  next => exact .refl S R w

/-- A caller that drops a reservation drops what it holds. -/
theorem drop (hr : r ∈ R)
    (hx : ∀ x, w.reservations[r]? = some x → x.scope ∈ S ∧ x.mentions ⊆ S) :
    Confined S R w (w.drop r) := by
  unfold System.drop onOffered
  split
  next x hr' =>
    split
    · have hdrop : Confined S R w (w.updateConsumer r Consumer.drop) := update hr _
      -- Its scope and what it mentions are not affected by what has become of the handle.
      have hkept : ∀ y, (w.updateConsumer r Consumer.drop).reservations[r]? = some y →
          y.scope ∈ S ∧ y.mentions ⊆ S := by
        intro y hy
        rw [updateConsumer, reservations_update, List.getElem?_modify_eq, hr'] at hy
        obtain rfl := Option.some.inj hy
        exact hx x hr'
      simp only [System.dropHandle, hr']
      split
      · exact hdrop.trans (update hr _)
      · split
        · exact hdrop.trans (discard hr hkept)
        · exact hdrop
    · exact .refl S R w
  next => exact .refl S R w

/-- Dropping the handle of a reservation that was launched changes that reservation only. -/
theorem dropHandle (hr : r ∈ R) (hx : ∀ x, w.reservations[r]? = some x → x.phase ≠ .captured) :
    Confined S R w (w.dropHandle r) := by
  unfold System.dropHandle
  split
  next x hr' =>
    have hdrop : Confined S R w (w.updateConsumer r Consumer.drop) := update hr _
    dsimp only
    split
    · exact hdrop.trans (update hr _)
    · rw [if_neg (hx x hr')]
      exact hdrop
  next => exact .refl S R w

/-- A task that is dropped reaches what its computation holds: the reservation that it awaits, and
the scopes that its remaining steps mention. -/
theorem dropTask (hr : r ∈ R) (hx : w.reservations[r]? = some x) (hmentions : x.mentions ⊆ S)
    (hawaited : ∀ c, x.phase = .paused (.inner c) → c ∈ R ∧ r ≠ c ∧
      ∀ z, w.reservations[c]? = some z → z.phase ≠ .captured) :
    Confined S R w (w.dropTask r) := by
  -- What it holds itself is let go of at the end, whatever else was dropped before.
  have hconclude {w₁ : System V} {phase : Phase} {event : Event V} {o : Outcome V}
      (hsame : w₁.reservations[r]? = w.reservations[r]?) :
      Confined S R w₁ (w₁.concludeWith r phase event o) := by
    refine concludeWith hr fun y hy => ?_
    obtain rfl := Option.some.inj (hx.symm.trans (hsame.symm.trans hy))
    exact hmentions
  simp only [System.dropTask, hx]
  split
  next =>
    split
    next => exact hconclude rfl
    next c hphase =>
      -- The handle of the awaited reservation goes first.
      obtain ⟨hc, hne, hlaunched⟩ := hawaited c hphase
      refine (dropHandle hc hlaunched).trans (hconclude ?_)
      rw [reservations_dropHandle, List.getElem?_modify_ne _ _ hne.symm]
    next => exact hconclude rfl
    next => exact .refl S R w
  next => exact .refl S R w

/-- A computation that has got the result of a reservation drops its handle, and what it
referred to for it. -/
theorem engage {access : Access} {c : ReservationId} {inner rest : Computation ScopeId V}
    (hr : r ∈ R) (hc : c ∈ R) (hlaunched : ∀ z, w.reservations[c]? = some z → z.phase ≠ .captured)
    (hmentions : s :: inner.mentions ⊆ S) :
    Confined S R w (w.engage r c access s inner rest) := by
  cases hz : w.reservations[c]? with
  | none =>
    rw [System.engage, hz]
    exact .refl S R w
  | some z =>
    rw [engage_eq hz]
    extract_lets looked w₁
    have hlooked : Confined S R w w₁ := update hc _
    split
    · refine hlooked.trans
        (.trans (dropHandle hc fun y hy => ?_) (advance hr fun t ht => hmentions ht))
      -- Looking for the result does not show in the phase.
      rw [show w₁ = w.update c _ from rfl, reservations_update, List.getElem?_modify_eq, hz] at hy
      obtain rfl := Option.some.inj hy
      exact hlaunched z hz
    · split
      · exact hlooked
      · exact hlooked.trans (update hr _)

/-- A computation that shuts a scope down changes the scope and its pool, and goes on itself. -/
theorem step_shutdown {rest : Computation ScopeId V} (hx : w.reservations[r]? = some x)
    (hrest : x.rest = .shutdown s rest) (hs : s ∈ S) (hr : r ∈ R) : Confined S R w (w.step r) := by
  have hstep : ∀ t ∈ [s], t ∈ S := fun t ht => List.mem_singleton.mp ht ▸ hs
  simp only [System.step, hx]
  split
  next =>
    split
    next =>
      simp only [takeStep, hrest]
      split
      · -- The scope is closed already, so the task goes on at once.
        exact advance hr hstep
      · exact (beginShutdown hs _).trans (update hr _)
    next hrest' =>
      rw [hrest] at hrest'
      cases hrest'
      exact (finishShutdown hs).trans (advance hr hstep)
    next hrest' =>
      rw [hrest] at hrest'
      cases hrest'
    next => exact .refl S R w
  next => exact .refl S R w

/-- A computation that drops its reference to a scope changes the scope, and goes on itself. -/
theorem step_dropScope {rest : Computation ScopeId V} (hx : w.reservations[r]? = some x)
    (hrest : x.rest = .dropScope s rest) (hs : s ∈ S) (hr : r ∈ R) : Confined S R w (w.step r) := by
  simp only [System.step, hx]
  split
  next =>
    split
    next =>
      simp only [takeStep, hrest]
      exact advance hr fun t ht => List.mem_singleton.mp ht ▸ hs
    next hrest' =>
      rw [hrest] at hrest'
      cases hrest'
    next hrest' =>
      rw [hrest] at hrest'
      cases hrest'
    next => exact .refl S R w
  next => exact .refl S R w

/-- A computation that looks for a result changes what belongs to that, if it finds it. -/
theorem step_engaged {access : Access} {c : ReservationId} {inner rest : Computation ScopeId V}
    (hx : w.reservations[r]? = some x) (hphase : x.phase = .active (.engaged c))
    (hrest : x.rest = .await access s inner rest) (hr : r ∈ R) (hc : c ∈ R)
    (hlaunched : ∀ z, w.reservations[c]? = some z → z.phase ≠ .captured)
    (hmentions : s :: inner.mentions ⊆ S) : Confined S R w (w.step r) := by
  by_cases hcan : w.canStep x = true
  · rw [step_of_engaged hx hphase hrest hcan]
    exact engage hr hc hlaunched hmentions
  · have hstep : w.step r = w := by simp [System.step, hx, hcan]
    rw [hstep]
    exact .refl S R w

/-! ### What is out of reach -/

/-- A scope out of reach is closed exactly if it was. -/
theorem isClosed_eq (h : Confined S R w w') (ht : t ∉ S) : w'.isClosed t = w.isClosed t := by
  rw [isClosed, isClosed, h.scopes_eq t ht]

/-- A pool that belongs to no scope within reach is up exactly if it was, through whatever scope. -/
theorem poolAlive_eq (h : Confined S R w w') (ht : t < w.scopes.length)
    (helsewhere : w.Elsewhere S t) : w'.poolAlive t = w.poolAlive t := by
  have hscope := List.getElem?_eq_getElem ht
  obtain ⟨scope', hscope', hages⟩ := h.ages.exists_scope hscope
  have hpool :=
    h.pools_eq _ fun s hs scope hscope₁ hown => helsewhere s hs scope _ hscope₁ hown hscope
  simp only [poolAlive, hscope, hscope', hages.pool_eq, hpool]

/-- Computations on a pool that belongs to no scope within reach are doomed exactly if they were. -/
theorem isDoomed_eq (h : Confined S R w w') (ht : x.scope < w.scopes.length)
    (helsewhere : w.Elsewhere S x.scope) : w'.isDoomed x = w.isDoomed x := by
  rw [isDoomed, isDoomed, h.poolAlive_eq ht helsewhere]

/-- Without a pool of its own, a scope touches no pool. -/
theorem pools_eq_self (h : Confined S R w w')
    (hnone : ∀ s ∈ S, ∀ scope, w.scopes[s]? = some scope → scope.owns = false) :
    w'.pools = w.pools := by
  refine List.ext_getElem? fun p => h.pools_eq p fun s hs scope hscope hown => ?_
  cases (hnone s hs scope hscope).symm.trans hown

end Confined

/-! ## Actions that shut scopes down or drop references -/

/-- The action shuts a scope down or drops references to scopes. The scopes are in `S`, and it is
one of the reservations in `R` that does so, or whose handle is dropped. -/
inductive Touches (w : System V) : List ScopeId → List ReservationId → Action V → Prop
  /-- A call of shutdown closes the scope. -/
  | beginShutdown (s : ScopeId) (closing : Closing) : Touches w [s] [] (.beginShutdown s closing)
  /-- A call of shutdown takes the pool out of the scope. -/
  | finishShutdown (s : ScopeId) : Touches w [s] [] (.finishShutdown s)
  /-- A computation calls shutdown, and drops its reference after that. -/
  | shutdown {r : ReservationId} {x : Reservation V} {s : ScopeId} {rest : Computation ScopeId V}
      (hx : w.reservations[r]? = some x) (hrest : x.rest = .shutdown s rest) :
      Touches w [s] [r] (.step r)
  /-- A caller drops a reference. -/
  | unshare (s : ScopeId) : Touches w [s] [] (.unshare s)
  /-- A computation drops a reference. -/
  | dropScope {r : ReservationId} {x : Reservation V} {s : ScopeId} {rest : Computation ScopeId V}
      (hx : w.reservations[r]? = some x) (hrest : x.rest = .dropScope s rest) :
      Touches w [s] [r] (.step r)
  /-- A computation that has reserved another one may have got its result, and then drops what it
  referred to for that. -/
  | engaged {r c : ReservationId} {x : Reservation V} {access : Access} {s : ScopeId}
      {inner rest : Computation ScopeId V} (hx : w.reservations[r]? = some x)
      (hphase : x.phase = .active (.engaged c)) (hrest : x.rest = .await access s inner rest) :
      Touches w (s :: inner.mentions) [r, c] (.step r)
  /-- A launch may find the scope closed, and then drops the computation. -/
  | testClosed {r : ReservationId} {x : Reservation V} (hx : w.reservations[r]? = some x) :
      Touches w x.mentions [r] (.testClosed r)
  /-- A launch may find the pool down, and then drops the computation. -/
  | spawn {r : ReservationId} {x : Reservation V} (hx : w.reservations[r]? = some x) :
      Touches w x.mentions [r] (.spawn r)
  /-- A launch that is over drops the reference to the scope of its reservation. -/
  | letGo {r : ReservationId} {x : Reservation V} (hx : w.reservations[r]? = some x) :
      Touches w [x.scope] [r] (.letGo r)
  /-- A caller drops a handle, and with it the reservation if that was not launched. -/
  | drop {r : ReservationId} {x : Reservation V} (hx : w.reservations[r]? = some x) :
      Touches w (x.scope :: x.mentions) [r] (.drop r)
  /-- A task is dropped, with what it holds. -/
  | dropTask {r : ReservationId} {x : Reservation V} (hx : w.reservations[r]? = some x) :
      Touches w x.mentions (r :: x.phase.awaited?.toList) (.dropTask r)

/-- In every run, a reservation that a computation waits for is another one, and was launched. -/
theorem ne_captured_of_awaited {actions : List (Action V)} {c : ReservationId}
    (hx : (run {} actions).reservations[r]? = some x) (hawaits : x.phase.awaited? = some c) :
    r ≠ c ∧ ∀ z, (run {} actions).reservations[c]? = some z → z.phase ≠ .captured := by
  obtain ⟨hne, access, z, htends, hcaptured⟩ := exists_awaited hx hawaits
  refine ⟨hne.symm, fun z' hz' => ?_⟩
  obtain rfl := Option.some.inj (htends.getElem?_eq.symm.trans hz')
  exact hcaptured

/-- In every run, shutting scopes down and dropping references to them changes the scopes, the pools
that they have, and the reservations of those who do it. -/
theorem Touches.confined {actions : List (Action V)} (h : (run {} actions).Touches S R a) :
    Confined S R (run {} actions) ((run {} actions).act a) := by
  cases h with
  | beginShutdown s closing =>
    rw [act]
    split
    · exact .beginShutdown List.mem_cons_self closing
    · exact .refl _ _ _
  | finishShutdown s => exact .finishShutdown List.mem_cons_self
  | shutdown hx hrest => exact .step_shutdown hx hrest List.mem_cons_self List.mem_cons_self
  | unshare s => exact .unshare List.mem_cons_self
  | dropScope hx hrest => exact .step_dropScope hx hrest List.mem_cons_self List.mem_cons_self
  | engaged hx hphase hrest =>
    obtain ⟨-, hlaunched⟩ := ne_captured_of_awaited hx (by rw [hphase]; rfl)
    exact .step_engaged hx hphase hrest List.mem_cons_self
      (List.mem_cons_of_mem _ List.mem_cons_self) hlaunched (List.Subset.refl _)
  | testClosed hx =>
    refine .testClosed List.mem_cons_self fun y hy => ?_
    obtain rfl := Option.some.inj (hx.symm.trans hy)
    exact List.Subset.refl _
  | spawn hx =>
    refine .spawn List.mem_cons_self fun y hy => ?_
    obtain rfl := Option.some.inj (hx.symm.trans hy)
    exact List.Subset.refl _
  | letGo hx =>
    refine .letGo List.mem_cons_self fun y hy => ?_
    obtain rfl := Option.some.inj (hx.symm.trans hy)
    exact List.mem_cons_self
  | drop hx =>
    refine .drop List.mem_cons_self fun y hy => ?_
    obtain rfl := Option.some.inj (hx.symm.trans hy)
    exact ⟨List.mem_cons_self, List.subset_cons_self _ _⟩
  | dropTask hx =>
    refine .dropTask List.mem_cons_self hx (List.Subset.refl _) fun c hphase => ?_
    have hawaited := congrArg Phase.awaited? hphase
    obtain ⟨hne, hlaunched⟩ := ne_captured_of_awaited hx hawaited
    refine ⟨List.mem_cons_of_mem _ ?_, hne, hlaunched⟩
    rw [hawaited]
    exact List.mem_cons_self

end Deferral.System
