import Deferral.Proofs.System.Lifetime

/-!
# Scopes that are not used

Callers hold references to a scope, and without one nothing can be done with it. A scope that nobody
has reserved anything on stays so unless a caller uses it, and if nobody holds a reference any more,
nobody ever uses it. So a scope that is built and dropped has its pool shut down in the background,
and no computation is ever started there.

Main statements:
* `Unused.act`: a scope that nobody uses stays unused.
* `UnstartedOn.act`: no computation is started on a pool that takes none.
* `spare_of_build`, `Spare.run`: a scope that is built is spare, and without a reference stays so.
* `Spare.exists_stops`: what becomes of the pool of a spare scope that was dropped.
-/

namespace Deferral

variable {V : Type}

/-- Without having a reference to the scope `s`, no caller can take this action. -/
def Action.Uses (s : ScopeId) : Action V → Prop
  | .share t | .unshare t | .beginShutdown t _ => t = s
  | .reserve t _ _ computation => s ∈ t :: computation.mentions
  | _ => False

/-- The computation was not started, and does not wait on a pool to be. -/
structure Reservation.Unstarted (x : Reservation V) : Prop where
  /-- It has no task. -/
  phase_eq : x.phase = .captured ∨ x.phase = .launching ∨ x.phase = .cleared ∨ x.phase = .dropped
  /-- No step was taken. -/
  position_eq : x.position = 0
  /-- Nothing was reported but that it was dropped. -/
  events_eq : x.events = if x.phase = .dropped then [.dropped] else []

namespace Reservation.Unstarted

variable {x x' : Reservation V}

/-- The launch of a computation that was not started goes on, or its handle is used. -/
theorem go (h : x.Unstarted) (hphase : x'.phase = x.phase ∨ x.phase ≠ .dropped ∧
      (x'.phase = .launching ∨ x'.phase = .cleared))
    (hposition : x'.position = x.position) (hevents : x'.events = x.events) : x'.Unstarted where
  phase_eq := by
    rcases hphase with hsame | ⟨-, hlaunching | hcleared⟩
    · rw [hsame]
      exact h.phase_eq
    · exact .inr (.inl hlaunching)
    · exact .inr (.inr (.inl hcleared))
  position_eq := hposition.trans h.position_eq
  events_eq := by
    rw [hevents, h.events_eq]
    rcases hphase with hsame | ⟨hne, hlaunching | hcleared⟩
    · rw [hsame]
    · rw [if_neg hne, hlaunching]
      rfl
    · rw [if_neg hne, hcleared]
      rfl

/-- A computation that was not started is dropped. -/
theorem drop (h : x.Unstarted) (hphase : x.phase ≠ .dropped) (hphase' : x'.phase = .dropped)
    (hposition : x'.position = x.position) (hevents : x'.events = x.events ++ [.dropped]) :
    x'.Unstarted where
  phase_eq := .inr (.inr (.inr hphase'))
  position_eq := hposition.trans h.position_eq
  events_eq := by
    rw [hevents, h.events_eq, if_neg hphase, if_pos hphase']
    rfl

/-- There is no task of a computation that was not started. -/
theorem isSuspended_eq_false (h : x.Unstarted) : x.phase.isSuspended = false := by
  rcases h.phase_eq with hphase | hphase | hphase | hphase <;> rw [hphase] <;> rfl

/-- There is no task of a computation that was not started. -/
theorem isActive_eq_false (h : x.Unstarted) : x.phase.isActive = false := by
  rcases h.phase_eq with hphase | hphase | hphase | hphase <;> rw [hphase] <;> rfl

end Reservation.Unstarted

namespace System

variable {w w' : System V} {a : Action V} {s t : ScopeId} {n : Nat} {r : ReservationId}
  {x x' : Reservation V}

/-! ## Scopes that are made -/

/-- A scope that is there after an action was there before, or is made by the action. -/
theorem scope_of_act {scope' : Scope} (h : (w.act a).scopes[t]? = some scope') :
    (∃ scope, w.scopes[t]? = some scope ∧ scope.Ages scope') ∨
      (∃ settings, a = .build settings ∧ t = w.scopes.length ∧ scope'.pool = w.pools.length) ∨
      ∃ name, a = .borrow name scope'.pool ∧ scope'.owns = false := by
  obtain hold | ⟨hle, -⟩ := (ages_act w a).scopes t scope' h
  · exact .inl hold
  -- The scope was not there before, so the action has added one.
  have hgrown : (w.act a).scopes.length ≠ w.scopes.length := by
    have hlt := (List.getElem?_eq_some_iff.mp h).1
    omega
  refine .inr ?_
  cases a with
  | build settings =>
    refine .inl ⟨settings, rfl, ?_⟩
    cases hbuild : w.build settings with
    | built s w' =>
      rw [act_build w hbuild] at h
      obtain ⟨pool, -, -, -, rfl⟩ := eq_of_build w hbuild
      rcases Balanced.getElem?_addScope h with hold | ⟨hlast, rfl⟩
      · exact absurd (List.getElem?_eq_some_iff.mp hold).1 (Nat.not_lt.mpr hle)
      · exact ⟨hlast, rfl⟩
    | refused | collapsed => exact absurd (by rw [act, hbuild]) hgrown
  | borrow name p =>
    refine .inr ⟨name, ?_⟩
    rw [act] at h hgrown
    split at h
    next hlt =>
      rcases Balanced.getElem?_addScope h with hold | ⟨-, rfl⟩
      · exact absurd (List.getElem?_eq_some_iff.mp hold).1 (Nat.not_lt.mpr hle)
      · exact ⟨rfl, rfl⟩
    next hlt => exact absurd (by rw [if_neg hlt]) hgrown
  | share t =>
    refine absurd ?_ hgrown
    rw [act, share]
    split
    · exact (Still.operational.retain w t).length_eq
    · rfl
  | unshare t =>
    refine absurd ?_ hgrown
    rw [act, unshare]
    split
    · exact (Still.operational.release _ t).length_eq
    · rfl
  | addPool => exact absurd rfl hgrown
  | _ => exact absurd (Still.operational.act w rfl).length_eq hgrown

/-! ## Unused scopes -/

/-- Callers hold `n` references to the scope `s`, and nothing was reserved that is on the scope or
mentions it. -/
structure Unused (s : ScopeId) (n : Nat) (w : System V) : Prop where
  /-- The scope is there. -/
  lt : s < w.scopes.length
  /-- Callers hold the references. -/
  count_eq : w.held.count s = n
  /-- No reservation refers to it, or has ever done so. -/
  notMem : ∀ (r : ReservationId) (x : Reservation V), w.reservations[r]? = some x →
    s ∉ x.scope :: x.rest.mentions

namespace Unused

/-- A scope that is not used by an action stays unused. -/
theorem act (h : w.Unused s n) (ha : s ∈ w.held → ¬a.Uses s) : (w.act a).Unused s n where
  lt := Nat.lt_of_lt_of_le h.lt (ages_act w a).length_le
  count_eq := by
    refine (count_held_act h.lt fun hheld => ⟨?_, ?_⟩).trans h.count_eq
    · rintro rfl
      exact ha hheld rfl
    · rintro rfl
      exact ha hheld rfl
  notMem r x' hx' := by
    rcases new_or_changes_of_act hx' with hnew | ⟨x, hx, hchanges⟩
    · cases hnew with
      | reserve hheld => exact fun hs => ha (hheld s hs) hs
      | await hy hphase hrest =>
        -- What a nested computation mentions is mentioned by the one that awaits it.
        have hfree := h.notMem _ _ hy
        rw [hrest, Computation.mentions] at hfree
        simp only [List.mem_cons, List.mem_append, not_or] at hfree ⊢
        exact ⟨hfree.2.1, hfree.2.2.1⟩
    · have hfree := h.notMem r x hx
      rw [hchanges.grows.scope_eq]
      rw [List.mem_cons, not_or] at hfree ⊢
      exact ⟨hfree.1, fun hs => hfree.2 (hchanges.grows.mentions_subset hs)⟩

/-- What nobody holds a reference to nobody can use. -/
theorem notMem_held (h : w.Unused s 0) : s ∉ w.held :=
  List.count_eq_zero.mp h.count_eq

/-- All references are those of callers. -/
theorem count_references (h : w.Unused s n) : w.references.count s = n := by
  -- No reservation refers to the scope, nor do the steps that remain of one.
  have hnone : (w.reservations.flatMap Reservation.references).count s = 0 := by
    refine List.count_eq_zero.mpr fun hs => ?_
    obtain ⟨x, hx, hsx⟩ := List.mem_flatMap.mp hs
    obtain ⟨r, hr⟩ := List.getElem?_of_mem hx
    have hfree := h.notMem r x hr
    rw [List.mem_cons, not_or] at hfree
    rw [Reservation.references, List.mem_append, Reservation.mentions] at hsx
    rcases hsx with hscope | hmentions
    · split at hscope
      · exact hfree.1 (List.mem_singleton.mp hscope)
      · cases hscope
    · split at hmentions
      · cases hmentions
      · exact hfree.2 hmentions
  rw [references, List.count_append, hnone, h.count_eq, Nat.add_zero]

/-- No call shuts the scope down. -/
theorem shuts?_eq_none (h : w.Unused s n) (ha : s ∈ w.held → ¬a.Uses s) : w.shuts? s a = none := by
  cases a with
  | beginShutdown t closing =>
    refine if_neg ?_
    rintro ⟨rfl, hheld, -⟩
    exact ha hheld rfl
  | step p =>
    rw [shuts?]
    cases hy : w.reservations[p]? with
    | none => rfl
    | some y =>
      rw [Option.bind_some]
      split
      next t rest hphase hrest =>
        refine if_neg ?_
        rintro ⟨rfl, -⟩
        -- A computation that is about to shut the scope down mentions it.
        refine h.notMem p y hy (List.mem_cons_of_mem _ ?_)
        rw [hrest]
        exact List.mem_cons_self
      next => rfl
  | _ => rfl

end Unused

/-! ## Pools on which nothing is started -/

/-- A reservation that is added was not started. -/
theorem New.unstarted (h : w.New a x) : x.Unstarted := by
  cases h with
  | reserve => exact ⟨.inl rfl, rfl, rfl⟩
  | await => exact ⟨.inr (.inl rfl), rfl, rfl⟩

/-- A pool that takes no computations starts none. -/
theorem Change.unstarted (h : w.Change r a x x') (hdead : w.poolAlive x.scope = false)
    (hx : x.Unstarted) : x'.Unstarted := by
  -- It is neither suspended nor on a thread, which rules most changes out.
  have hpaused : x.phase.isPaused ≠ true := fun hpaused => by
    have hsuspended := Phase.isSuspended_of_isPaused hpaused
    rw [hx.isSuspended_eq_false] at hsuspended
    cases hsuspended
  have hactive : x.phase.isActive ≠ true := fun hactive => by
    rw [hx.isActive_eq_false] at hactive
    cases hactive
  cases h with
  | handle | attach | letGo | abort => exact hx.go (.inl rfl) rfl rfl
  | launch hphase => exact hx.go (.inr ⟨by rw [hphase]; nofun, .inl rfl⟩) rfl rfl
  | clear hphase | clearDirectly hphase =>
    exact hx.go (.inr ⟨by rw [hphase]; nofun, .inr rfl⟩) rfl rfl
  | refuse _ _ hphase | lose hphase | discard hphase =>
    exact hx.drop (by rw [hphase]; nofun) rfl rfl rfl
  | queue _ halive =>
    rw [hdead] at halive
    cases halive
  | start hphase =>
    have hsuspended := hx.isSuspended_eq_false
    rw [hphase] at hsuspended
    cases hsuspended
  | advance _ hphase | engage _ hphase =>
    rcases hphase with h | ⟨h, -⟩
    · exact absurd h hactive
    · exact absurd h hpaused
  | pause _ hphase | finish hphase => exact absurd hphase hactive
  | drop _ hphase =>
    rw [hx.isSuspended_eq_false] at hphase
    cases hphase

/-- A pool that takes no computations starts none. -/
theorem Changes.unstarted (h : w.Changes r a x x') (hdead : w.poolAlive x.scope = false)
    (hx : x.Unstarted) : x'.Unstarted := by
  have hkept : x'.scope = x.scope ∧ x'.Unstarted :=
    h.preserve (P := fun y => y.scope = x.scope ∧ y.Unstarted)
      (fun y y' hchange hy =>
        ⟨hchange.grows.scope_eq.trans hy.1, hchange.unstarted (hy.1 ▸ hdead) hy.2⟩) ⟨rfl, hx⟩
  exact hkept.2

/-- Nothing that was reserved on the pool of the scope `s`, on whatever scope, was started. -/
def UnstartedOn (s : ScopeId) (w : System V) : Prop :=
  ∀ (r : ReservationId) (x : Reservation V) (scope scope' : Scope), w.reservations[r]? = some x →
    w.scopes[s]? = some scope → w.scopes[x.scope]? = some scope' → scope'.pool = scope.pool →
      x.Unstarted

/-- Nothing is started on a pool on which no scope takes computations. -/
theorem UnstartedOn.act (h : w.UnstartedOn s) (hw : w.Valid) (hs : s < w.scopes.length)
    (hdead : ∀ (r : ReservationId) (x : Reservation V) (scope scope' : Scope),
      w.reservations[r]? = some x → w.scopes[s]? = some scope → w.scopes[x.scope]? = some scope' →
        scope'.pool = scope.pool → w.poolAlive x.scope = false) (a : Action V) :
    (w.act a).UnstartedOn s := by
  intro r x' scope₁ scope₁' hx' hscope₁ hscope₁' hsame
  rcases new_or_changes_of_act hx' with hnew | ⟨x, hx, hchanges⟩
  · exact hnew.unstarted
  -- The scopes were there before, on the same pool.
  have hlt := hw.scope_lt r x hx x.scope List.mem_cons_self
  obtain ⟨scope₂, hscope₂, hages⟩ :=
    (ages_act w a).exists_scope (List.getElem?_eq_getElem hs)
  obtain ⟨scope₂', hscope₂', hages'⟩ :=
    (ages_act w a).exists_scope (List.getElem?_eq_getElem hlt)
  rw [hchanges.grows.scope_eq] at hscope₁'
  obtain rfl := Option.some.inj (hscope₁.symm.trans hscope₂)
  obtain rfl := Option.some.inj (hscope₁'.symm.trans hscope₂')
  rw [hages.pool_eq, hages'.pool_eq] at hsame
  have hscope := List.getElem?_eq_getElem hs
  have hscope' := List.getElem?_eq_getElem hlt
  exact Changes.unstarted hchanges (hdead r x _ _ hx hscope hscope' hsame)
    (h r x _ _ hx hscope hscope' hsame)

/-- The scope `s` is the only one on its pool. -/
def Sole (s : ScopeId) (w : System V) : Prop :=
  ∀ (t : ScopeId) (scope scope' : Scope), w.scopes[s]? = some scope →
    w.scopes[t]? = some scope' → scope'.pool = scope.pool → t = s

/-- A scope stays the only one on its pool as long as nobody makes one there. -/
theorem Sole.act (h : w.Sole s) (hw : w.Valid) (hs : s < w.scopes.length)
    (ha : ∀ name scope, w.scopes[s]? = some scope → a ≠ .borrow name scope.pool) :
    (w.act a).Sole s := by
  intro t scope₁ scope' hscope₁ hscope' hsame
  have hscope := List.getElem?_eq_getElem hs
  obtain ⟨scope₂, hscope₂, hages⟩ := (ages_act w a).exists_scope hscope
  obtain rfl := Option.some.inj (hscope₁.symm.trans hscope₂)
  rw [hages.pool_eq] at hsame
  rcases scope_of_act hscope' with
    ⟨scope₀, hscope₀, hages'⟩ | ⟨settings, rfl, -, hnew⟩ | ⟨name, rfl, -⟩
  · exact h t _ scope₀ hscope hscope₀ (hages'.pool_eq ▸ hsame)
  · exact absurd (hsame.symm.trans hnew) (Nat.ne_of_lt (hw.pool_lt s _ hscope))
  · exact absurd (by rw [hsame]) (ha name _ hscope)

/-! ## Scopes that were built in vain -/

/-- The calls of shutdown in a run and a further action. -/
theorem shutBy?_concat (s : ScopeId) (w : System V) (actions : List (Action V)) (a : Action V) :
    shutBy? s w (actions ++ [a]) = (shutBy? s w actions).or ((w.run actions).shuts? s a) := by
  induction actions generalizing w with
  | nil => simp [shutBy?]
  | cons b actions ih =>
    rw [List.cons_append, shutBy?, ih, shutBy?, Option.or_assoc, run_cons]

/-- The scope `s` was built at some point of a run and has not been used since. Callers hold `n`
references to it. -/
structure Spare (s : ScopeId) (n : Nat) (w : System V) : Prop where
  /-- It is not used. -/
  unused : w.Unused s n
  /-- It was built, and nobody has shut it down. -/
  built : ∃ early further scope, w = (run {} early).run further ∧
    (run {} early).scopes[s]? = some scope ∧ scope.owns = true ∧ scope.closed = false ∧
      shutBy? s (run {} early) further = none
  /-- As long as there is a reference, nobody else is on its pool. -/
  sole : 0 < n → w.Sole s
  /-- No computation was ever started there. -/
  unstartedOn : w.UnstartedOn s

namespace Spare

/-- The system comes from a run from the beginning. -/
theorem exists_run (h : w.Spare s n) : ∃ actions, w = run {} actions := by
  obtain ⟨early, further, -, rfl, -⟩ := h.built
  exact ⟨early ++ further, (run_append ..).symm⟩

/-- The scope is open, and has its pool as long as there is a reference. -/
theorem exists_standing (h : w.Spare s n) : ∃ scope, w.scopes[s]? = some scope ∧
    scope.references = n ∧ scope.closed = false ∧
      scope.Standing true none w.pools[scope.pool]? := by
  obtain ⟨early, further, scope₀, rfl, hscope₀, hown, hopen, hshut⟩ := h.built
  obtain ⟨scope, hscope, -⟩ := (ages_run (run {} early) further).exists_scope hscope₀
  have hstanding := standing_run hscope₀ hopen hscope
  rw [hown, hshut] at hstanding
  have hnone : scope.closing = none := by
    by_contra hsome
    obtain ⟨closing, hclosing⟩ := Option.ne_none_iff_exists'.mp hsome
    cases hstanding.call_eq closing hclosing
  obtain ⟨hcounted, -⟩ := counted_run hscope₀ hopen hscope rfl
  have hreferences := hcounted.references_eq
  rw [h.unused.count_references, hnone] at hreferences
  exact ⟨scope, hscope, hreferences, hstanding.closed_eq, hstanding⟩

/-- Without a reference, the pool was shut down once, in the background. -/
theorem exists_stops (h : w.Spare s 0) : ∃ scope pool, w.scopes[s]? = some scope ∧
    scope.closed = false ∧ w.pools[scope.pool]? = some pool ∧ pool.stops = [.background] := by
  obtain ⟨scope, hscope, hzero, hopen, hstanding⟩ := h.exists_standing
  obtain ⟨pool, hpool, hstops⟩ := hstanding.background hopen hzero
  exact ⟨scope, pool, hscope, hopen, hpool, hstops⟩

/-- Computations that are reserved on the pool are not taken by it, or there are none. -/
theorem poolAlive_eq_false {scope scope' : Scope} (h : w.Spare s n)
    (hx : w.reservations[r]? = some x) (hscope : w.scopes[s]? = some scope)
    (hscope' : w.scopes[x.scope]? = some scope') (hsame : scope'.pool = scope.pool) :
    w.poolAlive x.scope = false := by
  rcases Nat.eq_zero_or_pos n with rfl | hpos
  · obtain ⟨scope₁, pool, hscope₁, -, hpool, hstops⟩ := h.exists_stops
    obtain rfl := Option.some.inj (hscope.symm.trans hscope₁)
    rw [poolAlive, hscope']
    simp [hsame, hpool, Pool.alive, hstops]
  · have heq := h.sole hpos x.scope scope scope' hscope hscope' hsame
    exact absurd (heq ▸ List.mem_cons_self) (h.unused.notMem r x hx)

/-- No computation is started on the pool, whatever happens. -/
theorem unstartedOn_act (h : w.Spare s n) (a : Action V) : (w.act a).UnstartedOn s := by
  obtain ⟨actions, rfl⟩ := h.exists_run
  exact h.unstartedOn.act (valid_run actions) h.unused.lt
    (fun _ _ _ _ hx hscope hscope' hsame => h.poolAlive_eq_false hx hscope hscope' hsame) a

/-- What was built stays built when an action does not shut it down. -/
theorem built_act (h : w.Spare s n) (hshut : w.shuts? s a = none) :
    ∃ early further scope, w.act a = (run {} early).run further ∧
      (run {} early).scopes[s]? = some scope ∧ scope.owns = true ∧ scope.closed = false ∧
        shutBy? s (run {} early) further = none := by
  obtain ⟨early, further, scope, rfl, hscope, hown, hopen, hnone⟩ := h.built
  refine ⟨early, further ++ [a], scope, (run_concat ..).symm, hscope, hown, hopen, ?_⟩
  rw [shutBy?_concat, hnone, hshut]
  rfl

/-- A scope that an action does not use stays spare. -/
theorem act (h : w.Spare s n) (ha : s ∈ w.held → ¬a.Uses s)
    (hborrow : 0 < n → ∀ name scope, w.scopes[s]? = some scope → a ≠ .borrow name scope.pool) :
    (w.act a).Spare s n where
  unused := h.unused.act ha
  built := h.built_act (h.unused.shuts?_eq_none ha)
  sole hpos := by
    obtain ⟨actions, rfl⟩ := h.exists_run
    exact (h.sole hpos).act (valid_run actions) h.unused.lt (hborrow hpos)
  unstartedOn := h.unstartedOn_act a

/-- The last reference to a spare scope is dropped. -/
theorem unshare (h : w.Spare s 1) : (w.act (.unshare s)).Spare s 0 where
  unused :=
    { lt := Nat.lt_of_lt_of_le h.unused.lt (ages_act w _).length_le
      count_eq := by
        have hheld : s ∈ w.held :=
          List.count_pos_iff.mp (by rw [h.unused.count_eq]; exact Nat.one_pos)
        rw [System.act, System.unshare, if_pos hheld, (Still.operational.release ..).held_eq,
          List.count_erase_self, h.unused.count_eq]
      notMem := fun r x hx =>
        h.unused.notMem r x (by rwa [System.act, reservations_unshare] at hx) }
  built := h.built_act rfl
  sole hpos := absurd hpos (Nat.lt_irrefl 0)
  unstartedOn := h.unstartedOn_act _

/-- A scope of which nobody holds a reference stays spare throughout a run. -/
theorem run (h : w.Spare s 0) (actions : List (Action V)) : (w.run actions).Spare s 0 := by
  induction actions generalizing w with
  | nil => exact h
  | cons a actions ih =>
    exact ih (h.act (fun hheld => absurd hheld h.unused.notMem_held) fun hpos =>
      absurd hpos (Nat.lt_irrefl 0))

end Spare

/-- A scope that is built is spare. -/
theorem spare_of_build {actions : List (Action V)} {settings : Settings}
    (hbuild : (run {} actions).build settings = .built s w') : w'.Spare s 1 := by
  have hmade : (run {} actions).Made (.build settings) s true := .build hbuild
  obtain ⟨scope, hscope, hown, hopen⟩ := hmade.exists_scope
  have hact := act_build _ hbuild
  have hrun : w' = run {} (actions ++ [.build settings]) := by rw [run_concat, hact]
  have hvalid := valid_run actions
  rw [hact] at hscope
  obtain ⟨pool, -, -, rfl, rfl⟩ := eq_of_build _ hbuild
  refine ⟨⟨?_, ?_, ?_⟩, ⟨_, [], scope, hrun, hrun ▸ hscope, hown, hopen, rfl⟩, fun _ => ?_, ?_⟩
  · simp
  · refine (List.count_cons_self ..).trans ?_
    rw [List.count_eq_zero.mpr fun hmem => Nat.lt_irrefl _ (hvalid.held_lt _ hmem)]
  · exact fun r x hx hmem => Nat.lt_irrefl _ (hvalid.scope_lt r x hx _ hmem)
  · -- Any other scope was there before, on a pool that was there before.
    intro t scope₁ scope' hscope₁ hscope' hsame
    rw [List.getElem?_concat_length] at hscope₁
    cases hscope₁
    rcases Balanced.getElem?_addScope hscope' with hold | ⟨heq, -⟩
    · exact absurd hsame (Nat.ne_of_lt (hvalid.pool_lt t scope' hold))
    · exact heq
  · intro r x scope₁ scope' hx hscope₁ hscope' hsame
    rw [List.getElem?_concat_length] at hscope₁
    cases hscope₁
    have hlt := hvalid.scope_lt r x hx x.scope List.mem_cons_self
    rw [List.getElem?_append_left hlt] at hscope'
    exact absurd hsame (Nat.ne_of_lt (hvalid.pool_lt _ scope' hscope'))

end System

end Deferral
