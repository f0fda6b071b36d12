import Deferral.Proofs.System.Frame

/-!
# How scopes and pools age

A scope keeps its pool for good, stays closed once it was shut down, and does not get its pool back;
and the shutdowns of a pool are not undone.

All that operations do to scopes and pools is composed of a few changes. So a relation that
holds for those holds for every operation (`Operational`), which is proved once for the
operations one by one.

Main statements:
* `Operational.act`: what holds for the changes holds for actions that are composed of them.
* `ages_act`: what every action does to scopes and pools.
-/

namespace Deferral

/-- A scope keeps its pool, is not opened again, and never gets a pool of its own back. -/
structure Scope.Ages (scope scope' : Scope) : Prop where
  /-- It is on the same pool. -/
  pool_eq : scope'.pool = scope.pool
  /-- If it was closed, it is. -/
  closed : scope.closed = true → scope'.closed = true
  /-- If the pool belongs to it, it did so before. -/
  owns : scope'.owns = true → scope.owns = true

namespace Scope.Ages

theorem refl (scope : Scope) : scope.Ages scope :=
  ⟨rfl, id, id⟩

theorem trans {scope scope' scope'' : Scope} (h : scope.Ages scope') (h' : scope'.Ages scope'') :
    scope.Ages scope'' :=
  ⟨h'.pool_eq.trans h.pool_eq, fun hclosed => h'.closed (h.closed hclosed),
    fun hown => h.owns (h'.owns hown)⟩

end Scope.Ages

namespace System

variable {V : Type} {w w' : System V} {R : System V → System V → Prop}

/-! ## What operations are composed of -/

/-- What every operation does to scopes, pools and references of callers is related by `R`, because
the operations are composed of a few that are. -/
structure Operational (R : System V → System V → Prop) : Prop where
  /-- Nothing happens to scopes, pools and references of callers. -/
  of_eq : ∀ {w w' : System V}, w'.scopes = w.scopes → w'.pools = w.pools → w'.held = w.held → R w w'
  /-- One thing happens after the other. -/
  trans : ∀ {w w' w'' : System V}, R w w' → R w' w'' → R w w''
  /-- A scope ages. -/
  updateScope : ∀ (w : System V) (s : ScopeId) {f : Scope → Scope},
    (∀ scope : Scope, scope.Ages (f scope)) → R w (w.updateScope s f)
  /-- A pool is shut down. -/
  stopPool : ∀ (w : System V) (p : PoolId) (stop : Stop), R w (w.stopPool p stop)

/-- Whether an action makes no scope and no pool, and leaves callers the references
that they hold. -/
def isOrdinary : Action V → Bool
  | .build _ | .borrow .. | .share _ | .unshare _ | .addPool _ => false
  | _ => true

namespace Operational

theorem refl (h : Operational R) (w : System V) : R w w :=
  h.of_eq rfl rfl rfl

theorem takePool (h : Operational R) (w : System V) (s : ScopeId) (stop : Stop) :
    R w (w.takePool s stop) := by
  unfold System.takePool
  split
  next =>
    split
    · refine h.trans (h.updateScope w s ?_) (h.stopPool ..)
      exact fun _ => ⟨rfl, id, nofun⟩
    · exact h.refl w
  next => exact h.refl w

theorem retain (h : Operational R) (w : System V) (s : ScopeId) : R w (w.retain s) :=
  h.updateScope w s fun _ => ⟨rfl, id, id⟩

theorem release (h : Operational R) (w : System V) (s : ScopeId) : R w (w.release s) := by
  have hdrop : R w (w.updateScope s fun x => { x with references := x.references - 1 }) :=
    h.updateScope w s fun _ => ⟨rfl, id, id⟩
  simp only [System.release]
  split
  next =>
    split
    · exact h.trans hdrop (h.takePool ..)
    · exact hdrop
  next => exact hdrop

theorem releaseAll (h : Operational R) (w : System V) (ss : List ScopeId) :
    R w (w.releaseAll ss) := by
  induction ss generalizing w with
  | nil => exact h.refl w
  | cons s ss ih => exact h.trans (h.release w s) (ih _)

theorem retainAll (h : Operational R) (w : System V) (ss : List ScopeId) :
    R w (w.retainAll ss) := by
  induction ss generalizing w with
  | nil => exact h.refl w
  | cons s ss ih => exact h.trans (h.retain w s) (ih _)

theorem beginShutdown (h : Operational R) (w : System V) (s : ScopeId) (closing : Closing) :
    R w (w.beginShutdown s closing) := by
  unfold System.beginShutdown
  split
  next =>
    split
    · exact h.refl w
    · refine h.trans (h.updateScope w s ?_) (h.retain ..)
      exact fun _ => ⟨rfl, fun _ => rfl, id⟩
  next => exact h.refl w

theorem finishShutdown (h : Operational R) (w : System V) (s : ScopeId) :
    R w (w.finishShutdown s) := by
  unfold System.finishShutdown
  split
  next =>
    refine h.trans (h.trans (h.takePool w s _) (h.updateScope _ s ?_)) (h.release ..)
    exact fun _ => ⟨rfl, id, id⟩
  next => exact h.refl w

theorem update (h : Operational R) (w : System V) (r : ReservationId)
    (f : Reservation V → Reservation V) : R w (w.update r f) :=
  h.of_eq rfl rfl rfl

theorem reserve (h : Operational R) (w : System V) (s : ScopeId) (name : Option String)
    (label : String) (parent : Option ReservationId) (computation : Computation ScopeId V)
    (c : Consumer V) : R w (w.reserve s name label parent computation c).2 :=
  h.trans (h.retainAll w (s :: computation.mentions)) (h.of_eq rfl rfl rfl)

theorem conclude (h : Operational R) (w : System V) (r : ReservationId) (phase : Phase)
    (event : Event V) : R w (w.conclude r phase event) := by
  unfold System.conclude
  split
  next => exact h.trans (h.update ..) (h.releaseAll ..)
  next => exact h.refl w

theorem concludeWith (h : Operational R) (w : System V) (r : ReservationId) (phase : Phase)
    (event : Event V) (o : Outcome V) : R w (w.concludeWith r phase event o) :=
  h.trans (h.conclude ..) (h.update ..)

theorem letGo (h : Operational R) (w : System V) (r : ReservationId) : R w (w.letGo r) := by
  unfold System.letGo
  split
  next =>
    split
    · exact h.trans (h.update ..) (h.release ..)
    · exact h.refl w
  next => exact h.refl w

theorem testClosed (h : Operational R) (w : System V) (r : ReservationId) :
    R w (w.testClosed r) := by
  unfold System.testClosed
  split
  next =>
    split
    · split
      · exact h.concludeWith ..
      · exact h.update ..
    · exact h.refl w
  next => exact h.refl w

theorem spawn (h : Operational R) (w : System V) (r : ReservationId) : R w (w.spawn r) := by
  unfold System.spawn
  split
  next =>
    split
    · split
      · exact h.update ..
      · exact h.trans (h.update ..) (h.concludeWith ..)
    · exact h.refl w
  next => exact h.refl w

theorem attach (h : Operational R) (w : System V) (r : ReservationId) : R w (w.attach r) := by
  unfold System.attach
  split
  next =>
    split
    · exact h.update ..
    · exact h.refl w
  next => exact h.refl w

theorem discard (h : Operational R) (w : System V) (r : ReservationId) : R w (w.discard r) := by
  unfold System.discard
  split
  next =>
    split
    · exact h.trans (h.conclude ..) (h.letGo ..)
    · exact h.refl w
  next => exact h.refl w

theorem dropHandle (h : Operational R) (w : System V) (r : ReservationId) :
    R w (w.dropHandle r) := by
  unfold System.dropHandle
  split
  next =>
    have hdrop : R w (w.updateConsumer r Consumer.drop) := h.update ..
    dsimp only
    split
    · exact h.trans hdrop (h.update ..)
    · split
      · exact h.trans hdrop (h.discard ..)
      · exact hdrop
  next => exact h.refl w

theorem advance (h : Operational R) (w : System V) (r : ReservationId) (step : List ScopeId)
    (rest : Computation ScopeId V) (events : List (Event V)) :
    R w (w.advance r step rest events) :=
  h.trans (h.update ..) (h.releaseAll ..)

theorem resume (h : Operational R) (w : System V) (r : ReservationId) : R w (w.resume r) := by
  unfold System.resume
  split
  next => exact h.refl w
  next =>
    split
    next => exact h.refl w
    next =>
      split
      next => exact h.update ..
      next =>
        split
        · split
          · exact h.advance ..
          · exact h.advance ..
          · exact h.advance ..
          · exact h.update ..
          · exact h.refl w
        · exact h.refl w
      next => exact h.refl w

theorem dropTask (h : Operational R) (w : System V) (r : ReservationId) : R w (w.dropTask r) := by
  unfold System.dropTask
  split
  next => exact h.refl w
  next =>
    split
    next =>
      split
      · exact h.concludeWith ..
      · exact h.trans (h.dropHandle ..) (h.concludeWith ..)
      · exact h.concludeWith ..
      · exact h.refl w
    next => exact h.refl w

theorem takeStep (h : Operational R) (w : System V) (r : ReservationId) (x : Reservation V) :
    R w (w.takeStep r x) := by
  unfold System.takeStep
  split
  next => exact h.concludeWith ..
  next => exact h.concludeWith ..
  next =>
    split
    · exact h.advance ..
    · exact h.update ..
  next => exact h.advance ..
  next => exact h.update ..
  next => exact h.update ..
  next => split <;> exact h.advance ..
  next =>
    split
    · exact h.advance ..
    · exact h.trans (h.beginShutdown ..) (h.update ..)
  next => exact h.advance ..
  next => exact h.trans (h.trans (h.reserve ..) (h.update ..)) (h.update ..)

theorem engage (h : Operational R) (w : System V) (r child : ReservationId) (access : Access)
    (s : ScopeId) (inner rest : Computation ScopeId V) :
    R w (w.engage r child access s inner rest) := by
  unfold System.engage
  split
  next => exact h.refl w
  next c _ =>
    extract_lets waker looked w'
    have hlook : R w w' := h.update ..
    split
    · exact h.trans (h.trans hlook (h.dropHandle ..)) (h.advance ..)
    · split
      · exact hlook
      · exact h.trans hlook (h.update ..)

theorem step (h : Operational R) (w : System V) (r : ReservationId) : R w (w.step r) := by
  unfold System.step
  split
  next => exact h.refl w
  next =>
    split
    next =>
      split
      · exact h.takeStep ..
      · exact h.trans (h.finishShutdown ..) (h.advance ..)
      · exact h.engage ..
      · exact h.refl w
    next => exact h.refl w

/-- An operation on a handle that is offered. -/
theorem onOffered (h : Operational R) {r : ReservationId} {f : Reservation V → System V}
    (hf : ∀ x, R w (f x)) : R w (w.onOffered r f) := by
  unfold System.onOffered
  split
  next x _ =>
    split
    · exact hf x
    · exact h.refl w
  next => exact h.refl w

theorem reserveFor (h : Operational R) (w : System V) (s : ScopeId) (name : Option String)
    (label : String) (computation : Computation ScopeId V) :
    R w (w.reserveFor s name label computation) := by
  unfold System.reserveFor
  split
  · exact h.reserve ..
  · exact h.refl w

theorem use (h : Operational R) (w : System V) (r : ReservationId) (u : Use) :
    R w (w.use r u) := by
  refine h.onOffered fun x => ?_
  have hbegin : R w (w.updateConsumer r fun _ => (x.consumer.begin u).consumer) := h.update ..
  dsimp only
  split
  · exact h.trans hbegin (h.update ..)
  · exact hbegin

theorem expire (h : Operational R) (w : System V) (r : ReservationId) : R w (w.expire r) := by
  refine h.onOffered fun x => ?_
  have hlook : R w (w.updateConsumer r fun _ => x.consumer.expire.1) := h.update ..
  dsimp only
  split
  · exact h.trans hlook (h.update ..)
  · exact hlook

theorem cancel (h : Operational R) (w : System V) (r : ReservationId) : R w (w.cancel r) := by
  refine h.onOffered fun x => ?_
  split
  · exact h.update ..
  · exact h.refl w

theorem runDirectly (h : Operational R) (w : System V) (r : ReservationId) :
    R w (w.runDirectly r) := by
  refine h.onOffered fun x => ?_
  split
  · exact h.trans (h.trans (h.update ..) (h.update ..)) (h.spawn ..)
  · exact h.refl w

/-- What holds for what operations are composed of, holds for every action that makes no scope or
pool and no reference for a caller. -/
theorem act (h : Operational R) (w : System V) {a : Action V} (ha : isOrdinary a = true) :
    R w (w.act a) := by
  cases a with
  | build | borrow | share | unshare | addPool => cases ha
  | beginShutdown s closing =>
    rw [System.act]
    split
    · exact h.beginShutdown ..
    · exact h.refl w
  | finishShutdown s => exact h.finishShutdown ..
  | reserve s name label computation => exact h.reserveFor ..
  | reshape r shape => exact h.onOffered fun _ => h.update ..
  | use r u => exact h.use ..
  | poll r waker => exact h.onOffered fun _ => h.update ..
  | fetch r => exact h.onOffered fun _ => h.update ..
  | expire r => exact h.expire ..
  | complete r => exact h.onOffered fun _ => h.update ..
  | cancel r => exact h.cancel ..
  | drop r => exact h.onOffered fun _ => h.dropHandle ..
  | runDirectly r => exact h.runDirectly ..
  | testClosed r => exact h.testClosed ..
  | spawn r => exact h.spawn ..
  | letGo r => exact h.letGo ..
  | attach r => exact h.attach ..
  | resume r => exact h.resume ..
  | step r => exact h.step ..
  | dropTask r => exact h.dropTask ..
  | openGate g =>
    rw [System.act, openGate]
    split <;> exact h.of_eq rfl rfl rfl
  | pass t => exact h.of_eq rfl rfl rfl
  | stopPool p stop =>
    rw [System.act]
    split
    · exact h.refl w
    · exact h.stopPool ..

end Operational

/-! ## Scopes and pools -/

/-- The system `w'` has all scopes and pools of `w`, on which some operations were carried out. -/
structure Ages (w w' : System V) : Prop where
  /-- No scope is removed. -/
  length_le : w.scopes.length ≤ w'.scopes.length
  /-- A scope ages, and one that is added is made on a pool that there is. -/
  scopes : ∀ (s : ScopeId) (scope' : Scope), w'.scopes[s]? = some scope' →
    (∃ scope, w.scopes[s]? = some scope ∧ scope.Ages scope') ∨
      w.scopes.length ≤ s ∧ scope'.pool < w'.pools.length
  /-- A pool is not removed or renamed, and its shutdowns are not undone. -/
  pools : ∀ (p : PoolId) (pool : Pool), w.pools[p]? = some pool →
    ∃ pool', w'.pools[p]? = some pool' ∧ pool'.threadName = pool.threadName ∧
      pool.stops <+: pool'.stops
  /-- A caller is given references to scopes that there are. -/
  held : ∀ s ∈ w'.held, s ∈ w.held ∨ s < w'.scopes.length

namespace Ages

/-- Nothing happens to scopes and pools. -/
theorem of_eq (hscopes : w'.scopes = w.scopes) (hpools : w'.pools = w.pools)
    (hheld : w'.held = w.held) : Ages w w' where
  length_le := Nat.le_of_eq (by rw [hscopes])
  scopes s scope' h := .inl ⟨scope', by rw [← hscopes, h], .refl scope'⟩
  pools p pool h := ⟨pool, by rw [hpools, h], rfl, List.prefix_rfl⟩
  held s h := .inl (hheld ▸ h)

/-- Nothing happens. -/
theorem refl (w : System V) : Ages w w :=
  of_eq rfl rfl rfl

/-- No pool is removed. -/
theorem pools_length_le (h : Ages w w') : w.pools.length ≤ w'.pools.length := by
  by_contra hlt
  obtain ⟨pool', hpool', -⟩ :=
    h.pools w'.pools.length _ (List.getElem?_eq_getElem (Nat.lt_of_not_le hlt))
  exact Nat.lt_irrefl _ (List.getElem?_eq_some_iff.mp hpool').1

/-- A scope is not removed. -/
theorem exists_scope {s : ScopeId} {scope : Scope} (h : Ages w w')
    (hscope : w.scopes[s]? = some scope) :
    ∃ scope', w'.scopes[s]? = some scope' ∧ scope.Ages scope' := by
  have hlt := (List.getElem?_eq_some_iff.mp hscope).1
  have hlt' := Nat.lt_of_lt_of_le hlt h.length_le
  refine ⟨_, List.getElem?_eq_getElem hlt', ?_⟩
  cases h.scopes s _ (List.getElem?_eq_getElem hlt') with
  | inl hold =>
    obtain ⟨scope₀, hscope₀, hages⟩ := hold
    obtain rfl := Option.some.inj (hscope.symm.trans hscope₀)
    exact hages
  | inr hnew => exact absurd hlt (Nat.not_lt_of_le hnew.1)

/-- One thing happens after the other. -/
theorem trans {w'' : System V} (h : Ages w w') (h' : Ages w' w'') : Ages w w'' where
  length_le := Nat.le_trans h.length_le h'.length_le
  scopes s scope'' hscope'' := by
    cases h'.scopes s scope'' hscope'' with
    | inl hold =>
      obtain ⟨scope', hscope', hages'⟩ := hold
      cases h.scopes s scope' hscope' with
      | inl hold =>
        obtain ⟨scope, hscope, hages⟩ := hold
        exact .inl ⟨scope, hscope, hages.trans hages'⟩
      | inr hnew =>
        rw [hages'.pool_eq]
        exact .inr ⟨hnew.1, Nat.lt_of_lt_of_le hnew.2 h'.pools_length_le⟩
    | inr hnew => exact .inr ⟨Nat.le_trans h.length_le hnew.1, hnew.2⟩
  pools p pool hpool := by
    obtain ⟨pool', hpool', hname, hstops⟩ := h.pools p pool hpool
    obtain ⟨pool'', hpool'', hname', hstops'⟩ := h'.pools p pool' hpool'
    exact ⟨pool'', hpool'', hname'.trans hname, hstops.trans hstops'⟩
  held s hs := by
    cases h'.held s hs with
    | inl hold =>
      cases h.held s hold with
      | inl hold => exact .inl hold
      | inr hnew => exact .inr (Nat.lt_of_lt_of_le hnew h'.length_le)
    | inr hnew => exact .inr hnew

/-! ## Operations on scopes and pools -/

/-- A scope changes by ageing. -/
theorem updateScope (w : System V) (s : ScopeId) {f : Scope → Scope}
    (hf : ∀ scope : Scope, scope.Ages (f scope)) : Ages w (w.updateScope s f) where
  length_le := Nat.le_of_eq (by rw [System.updateScope, List.length_modify])
  scopes t scope' h := by
    refine .inl ?_
    rw [System.updateScope] at h
    by_cases ht : s = t
    · subst ht
      rw [List.getElem?_modify_eq] at h
      obtain ⟨scope, hscope, rfl⟩ := Option.map_eq_some_iff.mp h
      exact ⟨scope, hscope, hf scope⟩
    · rw [List.getElem?_modify_ne _ _ ht] at h
      exact ⟨scope', h, .refl scope'⟩
  pools p pool h := ⟨pool, h, rfl, List.prefix_rfl⟩
  held t h := .inl h

theorem stopPool (w : System V) (p : PoolId) (stop : Stop) : Ages w (w.stopPool p stop) where
  length_le := Nat.le_refl _
  scopes s scope' h := .inl ⟨scope', h, .refl scope'⟩
  pools q pool h := by
    rw [System.stopPool, updatePool]
    by_cases hq : p = q
    · subst hq
      rw [List.getElem?_modify_eq, h]
      exact ⟨_, rfl, rfl, List.prefix_append ..⟩
    · rw [List.getElem?_modify_ne _ _ hq]
      exact ⟨pool, h, rfl, List.prefix_rfl⟩
  held s h := .inl h

/-- A pool is made. -/
theorem addPool (w : System V) (pool : Pool) : Ages w { w with pools := w.pools ++ [pool] } where
  length_le := Nat.le_refl _
  scopes s scope' h := .inl ⟨scope', h, .refl scope'⟩
  pools p old h := by
    refine ⟨old, ?_, rfl, List.prefix_rfl⟩
    rw [List.getElem?_append_left (List.getElem?_eq_some_iff.mp h).1, h]
  held s h := .inl h

/-- A scope is made on a pool that there is, and its caller holds the reference. -/
theorem addScope (w : System V) {scope : Scope} (hlt : scope.pool < w.pools.length) :
    Ages w { w with scopes := w.scopes ++ [scope], held := w.scopes.length :: w.held } where
  length_le := by
    rw [List.length_append]
    exact Nat.le_add_right ..
  scopes s scope' h := by
    rw [List.getElem?_append] at h
    split at h
    next => exact .inl ⟨scope', h, .refl scope'⟩
    next hle =>
      obtain rfl := List.mem_singleton.mp (List.mem_of_getElem? h)
      exact .inr ⟨Nat.le_of_not_lt hle, hlt⟩
  pools p pool h := ⟨pool, h, rfl, List.prefix_rfl⟩
  held s h := by
    refine (List.mem_cons.mp h).symm.imp_right fun hs => ?_
    rw [hs, List.length_append]
    exact Nat.lt_succ_self _

/-- Scopes and pools age by whatever operations are composed of. -/
theorem operational : Operational (Ages (V := V)) where
  of_eq := of_eq
  trans := trans
  updateScope := updateScope
  stopPool := stopPool

theorem share (w : System V) (s : ScopeId) : Ages w (w.share s) := by
  unfold System.share
  split
  next hs =>
    have hretain : Ages w (w.retain s) := operational.retain ..
    refine { hretain with held := fun t ht => .inl ?_ }
    cases List.mem_cons.mp ht with
    | inl heq => exact heq ▸ hs
    | inr hmem => exact hmem
  next => exact refl w

theorem unshare (w : System V) (s : ScopeId) : Ages w (w.unshare s) := by
  unfold System.unshare
  split
  next =>
    have herase : Ages w { w with held := w.held.erase s } :=
      { refl w with held := fun t ht => .inl (List.mem_of_mem_erase ht) }
    exact herase.trans (operational.release ..)
  next => exact refl w

end Ages

/-- Every action lets scopes and pools age. -/
theorem ages_act (w : System V) (a : Action V) : Ages w (w.act a) := by
  cases a with
  | build settings =>
    rw [act]
    split
    next hbuild =>
      obtain ⟨pool, -, -, -, rfl⟩ := eq_of_build w hbuild
      exact (Ages.addPool w pool).trans (.addScope _ (by simp))
    next => exact .refl w
  | borrow name p =>
    rw [act]
    split
    next hlt => exact .addScope w hlt
    next => exact .refl w
  | share s => exact .share ..
  | unshare s => exact .unshare ..
  | addPool pool => exact .addPool ..
  | _ => exact Ages.operational.act w rfl

end System

end Deferral
