import Deferral.Proofs.System.Growth

/-!
# Who refers to a scope

A scope counts the references to it. They are held by callers, by reservations and by a shutdown
that is under way, and `Balanced` says that the count is right. Operations give references up before
they drop them, so the ones that are still due to be dropped are accounted for, too.

A scope that has a pool of its own loses it only when it is shut down, or with the last reference. A
ledger records which scopes were made with a pool, and which calls of shutdown have closed them, and
`Balanced` also says that every pool that was taken out was shut down as the ledger has it.

Main statements:
* `Balanced.release`, `Balanced.beginShutdown`, `Balanced.finishShutdown`: what happens to a scope.
* `Balanced.step`, `Balanced.dropHandle`, …: operations on reservations keep the count right.
-/

namespace Deferral

variable {V : Type}

/-- The scopes that a reservation refers to, once for every reference. -/
def Reservation.references (x : Reservation V) : List ScopeId :=
  (if x.holdsScope then [x.scope] else []) ++ x.mentions

/-- The scopes that callers and reservations refer to, once for every reference. -/
def System.references (w : System V) : List ScopeId :=
  w.held ++ w.reservations.flatMap Reservation.references

/-- What is on record of a scope: whether it was made with a pool of its own, and the call of
shutdown that has closed it, if there was one. -/
structure Record where
  /-- Whether it was made with a pool of its own. -/
  built : Bool
  /-- The call of shutdown that has closed it. -/
  shutBy : Option Closing := none

/-- How the pool of the scope is shut down once it is taken out: by the call that has closed the
scope, and otherwise in the background. -/
def Record.stop (record : Record) : Stop :=
  record.shutBy.elim .background Closing.stop

/-- The records of the scopes that are followed. -/
abbrev Ledger := ScopeId → Option Record

namespace Ledger

variable {L : Ledger} {s t : ScopeId} {closing : Closing}

/-- A call of shutdown that closes the scope goes on record. -/
def shut (s : ScopeId) (closing : Closing) (L : Ledger) : Ledger := fun t =>
  if s = t then (L s).map fun record => { record with shutBy := some closing } else L t

theorem shut_of_ne (h : s ≠ t) : L.shut s closing t = L t :=
  if_neg h

/-- Only a scope that is followed is on record. -/
theorem shut_of_eq_none (h : L s = none) : L.shut s closing = L := by
  funext t
  unfold shut
  split
  next ht => rw [← ht, h]; rfl
  next => rfl

/-- What is on record of a scope that was shut down. -/
theorem exists_of_shut {record' : Record} (h : L.shut s closing s = some record') :
    ∃ record, L s = some record ∧ record' = { record with shutBy := some closing } := by
  rw [shut, if_pos rfl] at h
  obtain ⟨record, hrecord, rfl⟩ := Option.map_eq_some_iff.mp h
  exact ⟨record, hrecord, rfl⟩

end Ledger

/-- A scope has counted `n` references that are not those of a shutdown. If it is followed, it
agrees with its record. -/
structure Scope.Counted (scope : Scope) (n : Nat) (record? : Option Record) : Prop where
  /-- A shutdown that is under way accounts for one reference more. -/
  references_eq : scope.references = n + if scope.closing.isSome then 1 else 0
  /-- A shutdown closes the scope first. -/
  closed_of_closing : scope.closing.isSome = true → scope.closed = true
  /-- The pool is there only while the scope is referred to, and open or about to be shut down. -/
  of_owns : scope.owns = true →
    0 < scope.references ∧ (scope.closed = false ∨ scope.closing.isSome = true)
  /-- The pool is not taken out before that. -/
  owns_of_built : ∀ record, record? = some record → record.built = true → 0 < scope.references →
    scope.closed = false ∨ scope.closing.isSome = true → scope.owns = true
  /-- It is closed if it was shut down. -/
  closed_eq : ∀ record, record? = some record → scope.closed = record.shutBy.isSome
  /-- The shutdown that is under way is the one that has closed it. -/
  closing_eq : ∀ record, record? = some record → ∀ closing, scope.closing = some closing →
    record.shutBy = some closing

namespace System

/-- The scope has a pool of its own, or was made with one. -/
def Keeps (L : Ledger) (s : ScopeId) (scope : Scope) : Prop :=
  scope.owns = true ∨ ∃ record, L s = some record ∧ record.built = true

/-- The references to every scope are counted, with those in `due` still to be dropped. The scopes
in the ledger agree with their records. -/
structure Balanced (L : Ledger) (w : System V) (due : List ScopeId) : Prop where
  /-- The scopes have counted the references. -/
  counted : ∀ (s : ScopeId) (scope : Scope), w.scopes[s]? = some scope →
    scope.Counted ((w.references ++ due).count s) (L s)
  /-- The scopes that are followed are there. -/
  lt_of_record : ∀ s record, L s = some record → s < w.scopes.length
  /-- A pool that belongs to a scope takes computations, and was made for that. -/
  alive : ∀ (s : ScopeId) (scope : Scope), w.scopes[s]? = some scope → scope.owns = true →
    ∃ pool : Pool, w.pools[scope.pool]? = some pool ∧ pool.forScope = true ∧ pool.alive = true
  /-- A pool that was taken out of its scope was shut down once. -/
  taken : ∀ (s : ScopeId) (scope : Scope) (record : Record), w.scopes[s]? = some scope →
    L s = some record → record.built = true → scope.owns = false →
      ∃ pool : Pool, w.pools[scope.pool]? = some pool ∧ pool.forScope = true ∧
        pool.stops = [record.stop]
  /-- No pool belongs, or has belonged, to two scopes. -/
  unique : ∀ (s t : ScopeId) (scope scope' : Scope), w.scopes[s]? = some scope →
    w.scopes[t]? = some scope' → Keeps L s scope → Keeps L t scope' → scope.pool = scope'.pool →
      s = t

variable {L L' : Ledger} {w w' : System V} {due due' : List ScopeId} {s : ScopeId}
  {r : ReservationId} {x : Reservation V}

/-- What a reservation gives up when it changes is no longer among the references. -/
theorem references_modify {l : List (Reservation V)} {f : Reservation V → Reservation V}
    {given : List ScopeId} (hx : l[r]? = some x)
    (h : ((f x).references ++ given).Perm x.references) :
    ((l.modify r f).flatMap Reservation.references ++ given).Perm
      (l.flatMap Reservation.references) := by
  induction l generalizing r with
  | nil => cases hx
  | cons y l ih =>
    cases r with
    | zero =>
      obtain rfl := Option.some.inj hx
      rw [List.modify_zero_cons, List.flatMap_cons, List.flatMap_cons, List.append_assoc]
      -- What is given up goes past the references of the others.
      refine ((List.perm_append_comm).append_left _).trans ?_
      rw [← List.append_assoc]
      exact h.append_right _
    | succ r =>
      rw [List.modify_succ_cons, List.flatMap_cons, List.flatMap_cons, List.append_assoc]
      exact (ih hx).append_left _

@[simp]
theorem references_retainAll (w : System V) (ss : List ScopeId) :
    (w.retainAll ss).references = w.references := by
  induction ss generalizing w with
  | nil => rfl
  | cons s ss ih => exact ih (w.retain s)

/-- A reservation that is added refers to its scope and to all that its computation mentions. -/
theorem references_reserve (w : System V) (s : ScopeId) (name : Option String) (label : String)
    (parent : Option ReservationId) (computation : Computation ScopeId V) (c : Consumer V) :
    (w.reserve s name label parent computation c).2.references =
      w.references ++ (s :: computation.mentions) := by
  rw [← references_retainAll w (s :: computation.mentions)]
  unfold System.references
  rw [reservations_reserve, List.flatMap_append, List.append_assoc, reservations_retainAll]
  simp [System.reserve, Reservation.references, Reservation.mentions, Phase.isOver]

/-- A reservation that refers to what it has referred to before. -/
theorem references_eq_of_phase {x' : Reservation V} (hscope : x'.scope = x.scope)
    (hholds : x'.holdsScope = x.holdsScope) (hrest : x'.rest = x.rest)
    (hover : x'.phase.isOver = x.phase.isOver) : x'.references = x.references := by
  simp only [Reservation.references, Reservation.mentions, hscope, hholds, hrest, hover]

/-- A scope without a pool of its own has none to take out. -/
theorem takePool_of_not_owns {w : System V} {s : ScopeId} {scope : Scope}
    (hscope : w.scopes[s]? = some scope) (hown : ¬scope.owns = true) (stop : Stop) :
    w.takePool s stop = w := by
  simp only [System.takePool, hscope, hown, Bool.false_eq_true, if_false]

/-- What a finished shutdown does to a scope that has its pool, and to the pool. -/
theorem updateScope_takePool_of_owns {w : System V} {s : ScopeId} {scope : Scope}
    (hscope : w.scopes[s]? = some scope) (hown : scope.owns = true) (stop : Stop) :
    (w.takePool s stop).updateScope s (fun x => { x with closing := none }) =
      (w.updateScope s fun x => { x with owns := false, closing := none }).stopPool scope.pool
        stop := by
  simp only [System.takePool, hscope, hown, if_true, System.stopPool, System.updatePool,
    System.updateScope, List.modify_modify_eq]
  rfl

namespace Balanced

/-- Only the scopes, the pools and who refers to which scope matter. -/
theorem of_perm (h : Balanced L w due) (hscopes : w'.scopes = w.scopes)
    (hpools : w'.pools = w.pools)
    (hperm : (w'.references ++ due').Perm (w.references ++ due)) : Balanced L w' due' where
  counted s scope hscope := by
    rw [hperm.count_eq]
    exact h.counted s scope (hscopes ▸ hscope)
  lt_of_record := hscopes ▸ h.lt_of_record
  alive := by
    rw [hscopes, hpools]
    exact h.alive
  taken := by
    rw [hscopes, hpools]
    exact h.taken
  unique := hscopes ▸ h.unique

/-! ## Operations on scopes and pools -/

/-- What becomes of the other scopes when one changes. -/
theorem getElem?_updateScope {f : Scope → Scope} {t : ScopeId} {scope' : Scope}
    (hscope' : (w.updateScope s f).scopes[t]? = some scope') :
    (s = t ∧ ∃ scope, w.scopes[s]? = some scope ∧ scope' = f scope) ∨
      s ≠ t ∧ w.scopes[t]? = some scope' := by
  rw [System.updateScope] at hscope'
  by_cases ht : s = t
  · subst ht
    rw [List.getElem?_modify_eq] at hscope'
    obtain ⟨scope, hscope, rfl⟩ := Option.map_eq_some_iff.mp hscope'
    exact .inl ⟨rfl, scope, hscope, rfl⟩
  · rw [List.getElem?_modify_ne _ _ ht] at hscope'
    exact .inr ⟨ht, hscope'⟩

/-- A scope has afterwards the pool that it has had before, and no scope has got one. -/
def Retains (L L' : Ledger) (w w' : System V) : Prop :=
  ∀ (t : ScopeId) (scope' : Scope), w'.scopes[t]? = some scope' → Keeps L' t scope' →
    ∃ scope, w.scopes[t]? = some scope ∧ scope'.pool = scope.pool ∧ Keeps L t scope

/-- As long as no scope gets a pool, no pool gets to belong to two scopes. -/
theorem unique_of_retains (h : Balanced L w due) (hretains : Retains L L' w w') (t u : ScopeId)
    (scope scope' : Scope) (ht : w'.scopes[t]? = some scope) (hu : w'.scopes[u]? = some scope')
    (hkept : Keeps L' t scope) (hkept' : Keeps L' u scope') (hsame : scope.pool = scope'.pool) :
    t = u := by
  obtain ⟨scope₁, hscope₁, hpool₁, hkept₁⟩ := hretains t scope ht hkept
  obtain ⟨scope₂, hscope₂, hpool₂, hkept₂⟩ := hretains u scope' hu hkept'
  rw [hpool₁, hpool₂] at hsame
  exact h.unique t u scope₁ scope₂ hscope₁ hscope₂ hkept₁ hkept₂ hsame

/-- When one scope changes but not its pool, no scope gets one. -/
theorem retains_updateScope {f : Scope → Scope} (hpool : ∀ scope, (f scope).pool = scope.pool)
    (hledger : ∀ t, s ≠ t → L' t = L t)
    (hkeeps : ∀ scope, Keeps L' s (f scope) → Keeps L s scope) :
    Retains L L' w (w.updateScope s f) := by
  intro t scope' hscope' hkept
  rcases getElem?_updateScope hscope' with ⟨rfl, scope, hscope, rfl⟩ | ⟨ht, hscope⟩
  · exact ⟨scope, hscope, hpool scope, hkeeps scope hkept⟩
  · exact ⟨scope', hscope, rfl, by rwa [Keeps, ← hledger t ht]⟩

/-- When one scope changes, the others count their references as before. -/
theorem counted_of_ne {t : ScopeId} {scope : Scope} (h : Balanced L w due)
    (hscope : w.scopes[t]? = some scope) (hdue : due'.count t = due.count t)
    (hledger : L' t = L t) :
    scope.Counted ((w.references ++ due').count t) (L' t) := by
  have hcount := h.counted t scope hscope
  rw [List.count_append] at hcount
  rw [List.count_append, hdue, hledger]
  exact hcount

/-- A scope changes, but has its pool afterwards exactly if it had it before. -/
theorem updateScope {f : Scope → Scope} (h : Balanced L w due)
    (hpool : ∀ scope, (f scope).pool = scope.pool) (howns : ∀ scope, (f scope).owns = scope.owns)
    (hdue : ∀ t, s ≠ t → due'.count t = due.count t) (hledger : ∀ t, s ≠ t → L' t = L t)
    (hbuilt : ∀ record', L' s = some record' →
      ∃ record, L s = some record ∧ record'.built = record.built)
    (hsame : ∀ scope record', w.scopes[s]? = some scope → scope.owns = false → L' s = some record' →
      record'.built = true → L s = some record')
    (hcounted : ∀ scope, w.scopes[s]? = some scope →
      scope.Counted ((w.references ++ due).count s) (L s) →
        (f scope).Counted ((w.references ++ due').count s) (L' s)) :
    Balanced L' (w.updateScope s f) due' where
  counted t scope' hscope' := by
    rcases getElem?_updateScope hscope' with ⟨rfl, scope, hscope, rfl⟩ | ⟨ht, hscope⟩
    · exact hcounted scope hscope (h.counted s scope hscope)
    · exact h.counted_of_ne hscope (hdue t ht) (hledger t ht)
  lt_of_record t record' ht := by
    rw [System.updateScope, List.length_modify]
    by_cases hst : s = t
    · subst hst
      obtain ⟨record, hrecord, -⟩ := hbuilt record' ht
      exact h.lt_of_record s record hrecord
    · exact h.lt_of_record t record' (hledger t hst ▸ ht)
  alive t scope' hscope' hown := by
    rcases getElem?_updateScope hscope' with ⟨rfl, scope, hscope, rfl⟩ | ⟨-, hscope⟩
    · rw [hpool]
      exact h.alive s scope hscope (howns scope ▸ hown)
    · exact h.alive t scope' hscope hown
  taken t scope' record' hscope' hrecord' hmade hown := by
    rcases getElem?_updateScope hscope' with ⟨rfl, scope, hscope, rfl⟩ | ⟨ht, hscope⟩
    · rw [hpool]
      rw [howns] at hown
      exact h.taken s scope record' hscope
        (hsame scope record' hscope hown hrecord' hmade) hmade hown
    · exact h.taken t scope' record' hscope (hledger t ht ▸ hrecord') hmade hown
  unique := by
    refine h.unique_of_retains (retains_updateScope hpool hledger fun scope hkept => ?_)
    rcases hkept with hown | ⟨record', hrecord', hmade⟩
    · exact .inl (howns scope ▸ hown)
    · obtain ⟨record, hrecord, hmade'⟩ := hbuilt record' hrecord'
      exact .inr ⟨record, hrecord, hmade' ▸ hmade⟩

/-- A scope changes, but neither its pool nor what is on record of it. -/
theorem updateScope_same {f : Scope → Scope} (h : Balanced L w due)
    (hpool : ∀ scope, (f scope).pool = scope.pool) (howns : ∀ scope, (f scope).owns = scope.owns)
    (hdue : ∀ t, s ≠ t → due'.count t = due.count t)
    (hcounted : ∀ scope, w.scopes[s]? = some scope →
      scope.Counted ((w.references ++ due).count s) (L s) →
        (f scope).Counted ((w.references ++ due').count s) (L s)) :
    Balanced L (w.updateScope s f) due' :=
  updateScope h hpool howns hdue (fun _ _ => rfl) (fun record hrecord => ⟨record, hrecord, rfl⟩)
    (fun _ _ _ _ hrecord _ => hrecord) hcounted

/-- A pool that belongs, and has belonged, to no scope is shut down. -/
theorem stopPool {p : PoolId} {stop : Stop} (h : Balanced L w due)
    (hp : ∀ (s : ScopeId) (scope : Scope), w.scopes[s]? = some scope → Keeps L s scope →
      scope.pool ≠ p) :
    Balanced L (w.stopPool p stop) due where
  counted := h.counted
  lt_of_record := h.lt_of_record
  alive s scope hscope hown := by
    obtain ⟨pool, hpool, hkind⟩ := h.alive s scope hscope hown
    refine ⟨pool, ?_, hkind⟩
    rw [System.stopPool, updatePool,
      List.getElem?_modify_ne _ _ (hp s scope hscope (.inl hown)).symm]
    exact hpool
  taken s scope record hscope hrecord hmade hown := by
    obtain ⟨pool, hpool, hkind⟩ := h.taken s scope record hscope hrecord hmade hown
    refine ⟨pool, ?_, hkind⟩
    rw [System.stopPool, updatePool,
      List.getElem?_modify_ne _ _ (hp s scope hscope (.inr ⟨record, hrecord, hmade⟩)).symm]
    exact hpool
  unique := h.unique

/-- To shut down the pool of a scope leaves those of the others alone. -/
theorem getElem?_stopPool_of_ne {scope scope' : Scope} {t : ScopeId} {stop : Stop}
    (h : Balanced L w due) (hscope : w.scopes[s]? = some scope) (hown : scope.owns = true)
    (hscope' : w.scopes[t]? = some scope') (hkept : Keeps L t scope') (ht : s ≠ t) :
    (w.stopPool scope.pool stop).pools[scope'.pool]? = w.pools[scope'.pool]? := by
  have hother : scope.pool ≠ scope'.pool := fun hsame =>
    ht (h.unique s t scope scope' hscope hscope' (.inl hown) hkept hsame)
  rw [System.stopPool, updatePool, List.getElem?_modify_ne _ _ hother]

/-- The pool is taken out of a scope, and shut down as the record of the scope says. -/
theorem takeOut {f : Scope → Scope} {scope : Scope} {stop : Stop} (h : Balanced L w due)
    (hscope : w.scopes[s]? = some scope) (hown : scope.owns = true)
    (hpool : ∀ scope, (f scope).pool = scope.pool) (htaken : ∀ scope, (f scope).owns = false)
    (hdue : ∀ t, s ≠ t → due'.count t = due.count t)
    (hstop : ∀ record, L s = some record → stop = record.stop)
    (hcounted : scope.Counted ((w.references ++ due).count s) (L s) →
      (f scope).Counted ((w.references ++ due').count s) (L s)) :
    Balanced L ((w.updateScope s f).stopPool scope.pool stop) due' where
  counted t scope' hscope' := by
    rcases getElem?_updateScope hscope' with ⟨rfl, scope₀, hscope₀, rfl⟩ | ⟨ht, hscope₀⟩
    · obtain rfl := Option.some.inj (hscope.symm.trans hscope₀)
      exact hcounted (h.counted s scope hscope)
    · exact h.counted_of_ne hscope₀ (hdue t ht) rfl
  lt_of_record t record ht := by
    show t < (w.updateScope s f).scopes.length
    rw [System.updateScope, List.length_modify]
    exact h.lt_of_record t record ht
  alive t scope' hscope' hown' := by
    rcases getElem?_updateScope hscope' with ⟨rfl, scope₀, hscope₀, rfl⟩ | ⟨ht, hscope₀⟩
    · cases (htaken scope₀).symm.trans hown'
    · obtain ⟨pool, hat, hkind⟩ := h.alive t scope' hscope₀ hown'
      exact ⟨pool, (h.getElem?_stopPool_of_ne hscope hown hscope₀ (.inl hown') ht).trans hat, hkind⟩
  taken t scope' record hscope' hrecord hmade hown' := by
    rcases getElem?_updateScope hscope' with ⟨rfl, scope₀, hscope₀, rfl⟩ | ⟨ht, hscope₀⟩
    · -- This is the pool that is shut down now.
      obtain rfl := Option.some.inj (hscope.symm.trans hscope₀)
      obtain ⟨pool, hat, hkind, halive⟩ := h.alive s scope hscope hown
      refine ⟨{ pool with stops := pool.stops ++ [stop] }, ?_, hkind, ?_⟩
      · rw [hpool, System.stopPool, updatePool, List.getElem?_modify_eq]
        show (w.pools[scope.pool]?).map _ = _
        rw [hat]
        rfl
      · show pool.stops ++ [stop] = _
        rw [List.isEmpty_iff.mp halive, hstop record hrecord]
        rfl
    · obtain ⟨pool, hat, hkind⟩ := h.taken t scope' record hscope₀ hrecord hmade hown'
      have hkept : Keeps L t scope' := .inr ⟨record, hrecord, hmade⟩
      exact ⟨pool, (h.getElem?_stopPool_of_ne hscope hown hscope₀ hkept ht).trans hat, hkind⟩
  unique := by
    have hretains : Retains L L w (w.updateScope s f) :=
      retains_updateScope hpool (fun _ _ => rfl) fun scope hkept =>
        hkept.imp_left fun hown' => by cases (htaken scope).symm.trans hown'
    exact h.unique_of_retains hretains

theorem retain (h : Balanced L w due) (hs : s ∈ w.references ++ due) :
    Balanced L (w.retain s) (s :: due) := by
  refine updateScope_same h (fun _ => rfl) (fun _ => rfl) (fun t ht => List.count_cons_of_ne ht) ?_
  intro scope hscope hcounted
  have hcount := hcounted.references_eq
  have hpos : 0 < scope.references := by
    have := List.count_pos_iff.mpr hs
    omega
  refine ⟨?_, hcounted.closed_of_closing, fun hown => ⟨Nat.succ_pos _, (hcounted.of_owns hown).2⟩,
    fun record hrecord hmade _ => hcounted.owns_of_built record hrecord hmade hpos,
    hcounted.closed_eq, hcounted.closing_eq⟩
  rw [List.count_append] at hcount
  simp only [List.count_append, List.count_cons_self]
  omega

/-- A reference is dropped that is not the last one, or by which there is no pool to
be taken out. -/
theorem release_of_kept (h : Balanced L w (s :: due))
    (hkept : ∀ scope, w.scopes[s]? = some scope → scope.owns = true → 1 < scope.references) :
    Balanced L (w.updateScope s fun x => { x with references := x.references - 1 }) due := by
  refine updateScope_same h (fun _ => rfl) (fun _ => rfl)
    (fun t ht => (List.count_cons_of_ne ht).symm) fun scope hscope hcounted => ?_
  have hcount := hcounted.references_eq
  simp only [List.count_append, List.count_cons_self] at hcount
  refine ⟨?_, hcounted.closed_of_closing, fun hown => ⟨?_, (hcounted.of_owns hown).2⟩,
    fun record hrecord hmade hpos => hcounted.owns_of_built record hrecord hmade ?_,
    hcounted.closed_eq, hcounted.closing_eq⟩
  · show scope.references - 1 =
      (w.references ++ due).count s + if scope.closing.isSome then 1 else 0
    rw [List.count_append]
    omega
  · exact Nat.sub_pos_of_lt (hkept scope hscope hown)
  · exact Nat.lt_of_lt_of_le hpos (Nat.sub_le ..)

/-- With the last reference the pool is taken out, and nothing is left that could be shut down. -/
theorem release_last {scope : Scope} (h : Balanced L w (s :: due))
    (hscope : w.scopes[s]? = some scope) (hown : scope.owns = true) (hlast : scope.references ≤ 1) :
    Balanced L ((w.updateScope s fun x =>
      { x with references := x.references - 1, owns := false }).stopPool scope.pool .background)
      due := by
  have hcounted := h.counted s scope hscope
  have hcount := hcounted.references_eq
  simp only [List.count_append, List.count_cons_self] at hcount
  -- The reference is the only one, so no shutdown is under way.
  have hnone : scope.closing.isSome = false := by
    by_contra hsome
    rw [if_pos (eq_true_of_ne_false hsome)] at hcount
    omega
  have hopen : scope.closed = false := (hcounted.of_owns hown).2.resolve_right (by simp [hnone])
  refine takeOut h hscope hown (fun _ => rfl) (fun _ => rfl)
    (fun t ht => (List.count_cons_of_ne ht).symm) (fun record hrecord => ?_) fun _ => ?_
  · have hshut := hcounted.closed_eq record hrecord
    rw [hopen] at hshut
    have hnever : record.shutBy = none := by simpa using hshut.symm
    rw [Record.stop, hnever]
    rfl
  · refine ⟨?_, hcounted.closed_of_closing, nofun, fun _ _ _ hpos => ?_, hcounted.closed_eq,
      hcounted.closing_eq⟩
    · show scope.references - 1 =
        (w.references ++ due).count s + if scope.closing.isSome then 1 else 0
      rw [List.count_append]
      omega
    · replace hpos : 0 < scope.references - 1 := hpos
      omega

theorem release (h : Balanced L w (s :: due)) : Balanced L (w.release s) due := by
  simp only [System.release]
  split
  next scope' hscope' =>
    obtain ⟨-, scope, hscope, rfl⟩ | ⟨hne, -⟩ := getElem?_updateScope hscope'
    · split
      next hzero =>
        -- This is the last reference: the scope gives its pool up, if it still has it.
        replace hzero : scope.references ≤ 1 := Nat.sub_eq_zero_iff_le.mp hzero
        unfold System.takePool
        rw [hscope']
        dsimp only
        split
        next hown =>
          have hlast := release_last h hscope hown hzero
          rw [System.updateScope, System.updateScope, List.modify_modify_eq]
          exact hlast
        next hown =>
          refine release_of_kept h fun scope₀ hscope₀ hown₀ => ?_
          obtain rfl := Option.some.inj (hscope.symm.trans hscope₀)
          exact absurd hown₀ hown
      next hpos =>
        refine release_of_kept h fun scope₀ hscope₀ _ => ?_
        obtain rfl := Option.some.inj (hscope.symm.trans hscope₀)
        exact Nat.lt_of_sub_pos (Nat.pos_of_ne_zero hpos)
    · exact absurd rfl hne
  next hnone =>
    refine release_of_kept h fun scope hscope _ => ?_
    rw [System.updateScope, List.getElem?_modify_eq, hscope] at hnone
    cases hnone

theorem releaseAll {ss : List ScopeId} (h : Balanced L w (ss ++ due)) :
    Balanced L (w.releaseAll ss) due := by
  induction ss generalizing w with
  | nil => exact h
  | cons s ss ih => exact ih (release h)

theorem retainAll {ss : List ScopeId} (h : Balanced L w due)
    (hss : ∀ s ∈ ss, s ∈ w.references ++ due) : Balanced L (w.retainAll ss) (ss ++ due) := by
  induction ss generalizing w due with
  | nil => exact h
  | cons s ss ih =>
    have hretain := retain h (hss s List.mem_cons_self)
    refine (ih hretain fun t ht => ?_).of_perm rfl rfl (List.perm_middle.symm.append_left _)
    refine (List.mem_append.mp (hss t (List.mem_cons_of_mem _ ht))).elim
      (List.mem_append_left _) fun ht => List.mem_append_right _ (List.mem_cons_of_mem _ ht)

/-- A shutdown that finds the scope open closes it, and goes on record. -/
theorem beginShutdown {closing : Closing} (h : Balanced L w due) (hs : s ∈ w.references ++ due)
    (hopen : w.isClosed s = false) :
    Balanced (L.shut s closing) (w.beginShutdown s closing) due := by
  unfold System.beginShutdown
  split
  next scope hscope =>
    have hclosed : scope.closed = false := by
      rw [isClosed, hscope, Option.any_some] at hopen
      exact hopen
    have hcounted := h.counted s scope hscope
    have hcount := hcounted.references_eq
    have hpos : 0 < scope.references := by
      have := List.count_pos_iff.mpr hs
      omega
    have hnone : scope.closing.isSome = false := by
      by_contra hsome
      cases hclosed.symm.trans (hcounted.closed_of_closing (eq_true_of_ne_false hsome))
    rw [hclosed, if_neg Bool.false_ne_true]
    -- Closing the scope and making the reference for the shutdown are one change of the scope.
    rw [System.retain, System.updateScope, System.updateScope, List.modify_modify_eq]
    refine updateScope (s := s) (f := _) h (fun _ => rfl) (fun _ => rfl) (fun _ _ => rfl)
      (fun t ht => Ledger.shut_of_ne ht) (fun record' hrecord' => ?_)
      (fun scope' record' hscope' hown hrecord' hmade => ?_) fun scope' hscope' _ => ?_
    · obtain ⟨record, hrecord, rfl⟩ := Ledger.exists_of_shut hrecord'
      exact ⟨record, hrecord, rfl⟩
    · -- A scope that is open and referred to has its pool still.
      obtain ⟨record, hrecord, rfl⟩ := Ledger.exists_of_shut hrecord'
      obtain rfl := Option.some.inj (hscope.symm.trans hscope')
      have hown' := hcounted.owns_of_built record hrecord hmade hpos (.inl hclosed)
      cases hown.symm.trans hown'
    · obtain rfl := Option.some.inj (hscope.symm.trans hscope')
      refine ⟨?_, fun _ => rfl, fun _ => ⟨Nat.succ_pos _, .inr rfl⟩,
        fun record' hrecord' hmade _ _ => ?_,
        fun record' hrecord' => ?_, fun record' hrecord' c hc => ?_⟩
      · rw [hnone] at hcount
        simpa using hcount
      · obtain ⟨record, hrecord, rfl⟩ := Ledger.exists_of_shut hrecord'
        exact hcounted.owns_of_built record hrecord hmade hpos (.inl hclosed)
      · obtain ⟨record, -, rfl⟩ := Ledger.exists_of_shut hrecord'
        rfl
      · obtain ⟨record, -, rfl⟩ := Ledger.exists_of_shut hrecord'
        exact hc
  next hnone =>
    have hlt : L.shut s closing = L := by
      refine Ledger.shut_of_eq_none ?_
      by_contra hrecord
      obtain ⟨record, hrecord⟩ := Option.ne_none_iff_exists'.mp hrecord
      exact Nat.not_lt_of_le (List.getElem?_eq_none_iff.mp hnone) (h.lt_of_record s record hrecord)
    rw [hlt]
    exact h

/-- A shutdown that is under way takes the pool out, if the scope has one, and drops
its reference. -/
theorem finishShutdown (h : Balanced L w due) : Balanced L (w.finishShutdown s) due := by
  unfold System.finishShutdown
  split
  next closing hclosing =>
    obtain ⟨scope, hscope, hsome⟩ := Option.bind_eq_some_iff.mp hclosing
    have hcounted := h.counted s scope hscope
    have hcount := hcounted.references_eq
    have hclosed : scope.closed = true := hcounted.closed_of_closing (by rw [hsome]; rfl)
    simp only [hsome, Option.isSome_some, if_true] at hcount
    -- The reference that the shutdown has held is the one that is dropped now.
    have hcount' : scope.references = (w.references ++ s :: due).count s + 0 := by
      rw [hcount, List.count_append, List.count_append, List.count_cons_self]
      rfl
    refine release ?_
    by_cases hown : scope.owns = true
    · have htaken : Balanced L ((w.updateScope s fun x =>
          { x with owns := false, closing := none }).stopPool scope.pool closing.stop)
            (s :: due) := by
        refine takeOut h hscope hown (fun _ => rfl) (fun _ => rfl)
          (fun t ht => List.count_cons_of_ne ht) (fun record hrecord => ?_) fun _ => ?_
        · rw [Record.stop, hcounted.closing_eq record hrecord closing hsome]
          rfl
        · exact ⟨hcount', nofun, nofun, fun _ _ _ _ hopen => (hopen.elim
            (fun hopen => by cases hclosed.symm.trans hopen) nofun), hcounted.closed_eq, nofun⟩
      rw [updateScope_takePool_of_owns hscope hown]
      exact htaken
    · rw [takePool_of_not_owns hscope hown]
      refine updateScope_same h (fun _ => rfl) (fun _ => rfl)
        (fun t ht => List.count_cons_of_ne ht) fun scope' hscope' _ => ?_
      obtain rfl := Option.some.inj (hscope.symm.trans hscope')
      exact ⟨hcount', nofun, fun hown' => absurd hown' hown, fun _ _ _ _ hopen => (hopen.elim
        (fun hopen => by cases hclosed.symm.trans hopen) nofun), hcounted.closed_eq, nofun⟩
  next => exact h

theorem share (h : Balanced L w due) : Balanced L (w.share s) due := by
  unfold System.share
  split
  next hs =>
    have hretain := retain h (List.mem_append_left due (List.mem_append_left _ hs))
    -- The further reference is one that a caller holds.
    exact hretain.of_perm rfl rfl (List.perm_middle.symm)
  next => exact h

theorem unshare (h : Balanced L w due) : Balanced L (w.unshare s) due := by
  unfold System.unshare
  split
  next hs =>
    refine release (h.of_perm rfl rfl ?_)
    refine List.perm_middle.trans ?_
    exact (((List.perm_cons_erase hs).symm.append_right _).append_right due)
  next => exact h

/-! ## Operations on reservations -/

/-- A reservation changes, and gives some references up. -/
theorem update {f : Reservation V → Reservation V} {given : List ScopeId} (h : Balanced L w due)
    (hx : w.reservations[r]? = some x) (hgiven : ((f x).references ++ given).Perm x.references) :
    Balanced L (w.update r f) (given ++ due) := by
  refine h.of_perm rfl rfl ?_
  rw [← List.append_assoc]
  refine List.Perm.append_right due ?_
  unfold System.references
  rw [List.append_assoc]
  exact (references_modify hx hgiven).append_left w.held

/-- A reservation changes, but refers to the same scopes. -/
theorem update_same {f : Reservation V → Reservation V} (h : Balanced L w due)
    (hf : ∀ x, w.reservations[r]? = some x → (f x).references = x.references) :
    Balanced L (w.update r f) due := by
  rcases hx : w.reservations[r]? with _ | x
  · have hsame : w.update r f = w := by
      rw [System.update, List.modify_eq_self (List.getElem?_eq_none_iff.mp hx)]
    rwa [hsame]
  · have hnone : ((f x).references ++ []).Perm x.references := by rw [List.append_nil, hf x hx]
    exact update h hx hnone

theorem publish {o : Outcome V} (h : Balanced L w due) : Balanced L (w.publish r o) due :=
  update_same h fun _ _ => rfl

/-- A computation that is over gives up what its remaining steps have mentioned. -/
theorem conclude {phase : Phase} {event : Event V} (h : Balanced L w due)
    (hover : phase.isOver = true) : Balanced L (w.conclude r phase event) due := by
  unfold System.conclude
  split
  next x hx =>
    refine releaseAll (update h hx ?_)
    simp [Reservation.references, Reservation.mentions, hover]
  next => exact h

theorem concludeWith {phase : Phase} {event : Event V} {o : Outcome V} (h : Balanced L w due)
    (hover : phase.isOver = true) : Balanced L (w.concludeWith r phase event o) due :=
  publish (conclude h hover)

theorem letGo (h : Balanced L w due) : Balanced L (w.letGo r) due := by
  unfold System.letGo
  split
  next x hx =>
    split
    next hholds =>
      rw [Bool.and_eq_true] at hholds
      have hgiven : Balanced L (w.update r fun x => { x with holdsScope := false })
          ([x.scope] ++ due) :=
        update h hx (by simp [Reservation.references, Reservation.mentions, hholds.1])
      exact release hgiven
    next => exact h
  next => exact h

theorem startLaunch (h : Balanced L w due) : Balanced L (w.startLaunch r) due := by
  refine update_same h fun x _ => ?_
  split
  next hphase => exact references_eq_of_phase rfl rfl rfl (by rw [hphase]; rfl)
  next => rfl

theorem testClosed (h : Balanced L w due) : Balanced L (w.testClosed r) due := by
  unfold System.testClosed
  split
  next x hx =>
    split
    next hphase =>
      split
      next => exact concludeWith h rfl
      next =>
        refine update_same h fun y hy => ?_
        obtain rfl := Option.some.inj (hx.symm.trans hy)
        exact references_eq_of_phase rfl rfl rfl (by rw [hphase]; rfl)
    next => exact h
  next => exact h

theorem spawn (h : Balanced L w due) : Balanced L (w.spawn r) due := by
  unfold System.spawn
  split
  next x hx =>
    split
    next hphase =>
      split
      next =>
        refine update_same h fun y hy => ?_
        obtain rfl := Option.some.inj (hx.symm.trans hy)
        exact references_eq_of_phase rfl rfl rfl (by rw [hphase]; rfl)
      next => exact concludeWith (update_same h fun _ _ => rfl) rfl
    next => exact h
  next => exact h

theorem attach (h : Balanced L w due) : Balanced L (w.attach r) due := by
  unfold System.attach
  split
  next =>
    split
    next => exact update_same h fun _ _ => rfl
    next => exact h
  next => exact h

theorem discard (h : Balanced L w due) : Balanced L (w.discard r) due := by
  unfold System.discard
  split
  next =>
    split
    next => exact letGo (conclude h rfl)
    next => exact h
  next => exact h

theorem abort (h : Balanced L w due) : Balanced L (w.abort r) due := by
  refine update_same h fun x _ => ?_
  split <;> rfl

theorem dropHandle (h : Balanced L w due) : Balanced L (w.dropHandle r) due := by
  unfold System.dropHandle
  split
  next =>
    have hdrop : Balanced L (w.updateConsumer r Consumer.drop) due := update_same h fun _ _ => rfl
    dsimp only
    split
    next => exact abort hdrop
    next =>
      split
      next => exact discard hdrop
      next => exact hdrop
  next => exact h

/-- A task that goes on gives up what the step that is over has mentioned. -/
theorem advance {step : List ScopeId} {rest : Computation ScopeId V} {events : List (Event V)}
    (h : Balanced L w due) (hx : w.reservations[r]? = some x) (hover : x.phase.isOver = false)
    (hstep : x.rest.mentions = step ++ rest.mentions) :
    Balanced L (w.advance r step rest events) due := by
  refine releaseAll (update h hx ?_)
  have hmentions : x.mentions = step ++ rest.mentions := by
    rw [Reservation.mentions, hover, ← hstep]
    rfl
  rw [Reservation.references, Reservation.references, hmentions, List.append_assoc]
  exact List.perm_append_comm.append_left _

theorem setPhase {phase : Phase} (h : Balanced L w due) (hx : w.reservations[r]? = some x)
    (hover : x.phase.isOver = phase.isOver) : Balanced L (w.setPhase r phase) due := by
  refine update_same h fun y hy => ?_
  obtain rfl := Option.some.inj (hx.symm.trans hy)
  exact references_eq_of_phase rfl rfl rfl hover.symm

theorem resume (h : Balanced L w due) : Balanced L (w.resume r) due := by
  unfold System.resume
  split
  next => exact h
  next x hx =>
    split
    next => exact h
    next =>
      split
      next hphase =>
        refine update_same h fun y hy => ?_
        obtain rfl := Option.some.inj (hx.symm.trans hy)
        exact references_eq_of_phase rfl rfl rfl (by rw [hphase]; rfl)
      next pause hphase =>
        have hover : x.phase.isOver = false := by rw [hphase]; rfl
        split
        next hdue =>
          split
          next hrest => exact advance h hx hover (by rw [hrest]; rfl)
          next hrest => exact advance h hx hover (by rw [hrest]; rfl)
          next hrest => exact advance h hx hover (by rw [hrest]; rfl)
          next => exact setPhase h hx hover
          next => exact h
        next => exact h
      next => exact h

theorem dropTask (h : Balanced L w due) : Balanced L (w.dropTask r) due := by
  unfold System.dropTask
  split
  next => exact h
  next =>
    split
    next =>
      split
      next => exact concludeWith h rfl
      next => exact concludeWith (dropHandle h) rfl
      next => exact concludeWith h rfl
      next => exact h
    next => exact h

/-- A reservation accounts for the references that were made for it. -/
theorem reserve {name : Option String} {label : String} {parent : Option ReservationId}
    {computation : Computation ScopeId V} {c : Consumer V} (h : Balanced L w due)
    (hs : ∀ t ∈ s :: computation.mentions, t ∈ w.references) :
    Balanced L (w.reserve s name label parent computation c).2 due := by
  have hretain := retainAll h fun t ht => List.mem_append_left due (hs t ht)
  refine hretain.of_perm rfl rfl ?_
  rw [references_retainAll, references_reserve, List.append_assoc]

/-- A step that waits for a nested reservation makes it and turns to it. A step that shuts an open
scope down is left out. -/
theorem takeStep (h : Balanced L w due) (hx : w.reservations[r]? = some x)
    (hphase : x.phase.isActive = true)
    (hshuts : ∀ s rest, x.rest = .shutdown s rest → w.isClosed s = true) :
    Balanced L (w.takeStep r x) due := by
  have hover : x.phase.isOver = false := Phase.isOver_of_isActive hphase
  unfold System.takeStep
  split
  next => exact concludeWith h rfl
  next => exact concludeWith h rfl
  next hrest =>
    split
    next => exact advance h hx hover (by rw [hrest]; rfl)
    next => exact setPhase h hx hover
  next hrest => exact advance h hx hover (by rw [hrest]; rfl)
  next => exact setPhase h hx hover
  next => exact setPhase h hx hover
  next hrest => split <;> exact advance h hx hover (by rw [hrest]; rfl)
  next s rest hrest =>
    rw [if_pos (hshuts s rest hrest)]
    exact advance h hx hover (by rw [hrest]; rfl)
  next hrest => exact advance h hx hover (by rw [hrest]; rfl)
  next access s inner rest hrest =>
    have hlt := (List.getElem?_eq_some_iff.mp hx).1
    have hmentions : x.mentions = s :: (inner.mentions ++ rest.mentions) := by
      rw [Reservation.mentions, hover, hrest]
      rfl
    -- The step mentions every scope that the nested reservation refers to.
    have hreserve : Balanced L
        (w.reserve s none (innerLabel x) (some r) inner access.consumer).2 due := by
      refine reserve h fun t ht => ?_
      refine List.mem_append_right _ (List.mem_flatMap.mpr ⟨x, List.mem_of_getElem? hx, ?_⟩)
      refine List.mem_append_right _ (hmentions ▸ ?_)
      exact (List.mem_cons.mp ht).elim (fun ht => ht ▸ List.mem_cons_self) fun ht =>
        List.mem_cons_of_mem _ (List.mem_append_left _ ht)
    refine setPhase (x := x) (startLaunch hreserve) ?_ hover
    rw [System.startLaunch, reservations_update, List.getElem?_modify_ne _ _ (Nat.ne_of_gt hlt)]
    exact (List.getElem?_append_left hlt).trans hx

theorem engage {child : ReservationId} {access : Access} {s : ScopeId}
    {inner rest : Computation ScopeId V} (h : Balanced L w due) (hx : w.reservations[r]? = some x)
    (hphase : x.phase.isActive = true) (hrest : x.rest = .await access s inner rest) :
    Balanced L (w.engage r child access s inner rest) due := by
  unfold System.engage
  split
  next => exact h
  next c _ =>
    extract_lets waker looked w'
    have hlook : Balanced L w' due := update_same h fun _ _ => rfl
    -- Its own reservation stays at the same step, even if it awaits itself.
    obtain ⟨x', hx', hphase', hrest'⟩ : ∃ x', w'.reservations[r]? = some x' ∧
        x'.phase = x.phase ∧ x'.rest = x.rest :=
      exists_getElem?_modify hx ⟨rfl, rfl⟩ child fun _ h => h
    have hactive : x'.phase.isActive = true := by rw [hphase', hphase]
    split
    next d _ =>
      obtain ⟨x'', hx'', hphase'', hrest''⟩ :=
        exists_getElem?_dropHandle hx' (fun h => by rw [h] at hactive; cases hactive) child
      refine advance (dropHandle hlook) hx'' ?_ ?_
      · rw [hphase'']
        exact Phase.isOver_of_isActive hactive
      · rw [hrest'', hrest', hrest]
        rfl
    next =>
      split
      next => exact hlook
      next => exact setPhase hlook hx' (Phase.isOver_of_isActive hactive)

theorem step (h : Balanced L w due)
    (hshuts : ∀ x s rest, w.reservations[r]? = some x → x.phase = .active .step →
      x.rest = .shutdown s rest → w.isClosed s = true) : Balanced L (w.step r) due := by
  unfold System.step
  split
  next => exact h
  next x hx =>
    split
    next =>
      split
      next hphase =>
        exact takeStep h hx (by rw [hphase]; rfl) fun s rest hrest =>
          hshuts x s rest hx hphase hrest
      next s rest hphase hrest =>
        -- The shutdown is finished first; that leaves the task as it is.
        refine advance (x := x) (finishShutdown h) ?_ ?_ ?_
        · rw [reservations_finishShutdown, hx]
        · rw [hphase]
          rfl
        · rw [hrest]
          rfl
      next hphase hrest => exact engage h hx (by rw [hphase]; rfl) hrest
      next => exact h
    next => exact h

/-- A computation whose next step is to shut a scope down refers to the scope. -/
theorem mem_references_of_shutdown {rest : Computation ScopeId V} (hx : w.reservations[r]? = some x)
    (hphase : x.phase = .active .step) (hrest : x.rest = .shutdown s rest) : s ∈ w.references := by
  refine List.mem_append_right _ (List.mem_flatMap.mpr ⟨x, List.mem_of_getElem? hx, ?_⟩)
  refine List.mem_append_right _ ?_
  simp [Reservation.mentions, hphase, Phase.isOver, hrest, Computation.mentions]

/-- A computation shuts a scope down as a call from inside a pool does. -/
theorem step_shutdown {rest : Computation ScopeId V} (h : Balanced L w due)
    (hx : w.reservations[r]? = some x) (hphase : x.phase = .active .step)
    (hrest : x.rest = .shutdown s rest) (hopen : w.isClosed s = false) :
    Balanced (L.shut s { limit := ((w.scopes[s]?).map Scope.grace).getD .zero, inside := true })
      (w.step r) due := by
  have hstep : w.step r = (w.beginShutdown s
      { limit := ((w.scopes[s]?).map Scope.grace).getD .zero, inside := true }).setPhase r
        (.active .closing) := by
    simp [System.step, hx, canStep, hphase, System.takeStep, hrest, hopen]
  have hs := List.mem_append_left due (mem_references_of_shutdown hx hphase hrest)
  rw [hstep]
  refine setPhase (x := x) (beginShutdown h hs hopen) ?_ ?_
  · rw [reservations_beginShutdown, hx]
  · rw [hphase]
    rfl

/-- An operation on a handle that is offered. -/
theorem onOffered {f : Reservation V → System V} (h : Balanced L w due)
    (hf : ∀ x, Balanced L (f x) due) : Balanced L (w.onOffered r f) due := by
  unfold System.onOffered
  split
  next x _ =>
    split
    next => exact hf x
    next => exact h
  next => exact h

theorem reserveFor {name : Option String} {label : String} {computation : Computation ScopeId V}
    (h : Balanced L w due) : Balanced L (w.reserveFor s name label computation) due := by
  unfold System.reserveFor
  split
  next hheld => exact reserve h fun t ht => List.mem_append_left _ (hheld t ht)
  next => exact h

theorem use (h : Balanced L w due) (u : Use) : Balanced L (w.use r u) due := by
  refine onOffered h fun x => ?_
  have hbegin : Balanced L (w.updateConsumer r fun _ => (x.consumer.begin u).consumer) due :=
    update_same h fun _ _ => rfl
  dsimp only
  split
  next => exact startLaunch hbegin
  next => exact hbegin

theorem expire (h : Balanced L w due) : Balanced L (w.expire r) due := by
  refine onOffered h fun x => ?_
  have hlook : Balanced L (w.updateConsumer r fun _ => x.consumer.expire.1) due :=
    update_same h fun _ _ => rfl
  dsimp only
  split
  next => exact abort hlook
  next => exact hlook

theorem cancel (h : Balanced L w due) : Balanced L (w.cancel r) due := by
  refine onOffered h fun x => ?_
  split
  next => exact abort h
  next => exact h

theorem runDirectly (h : Balanced L w due) : Balanced L (w.runDirectly r) due := by
  refine onOffered h fun x => ?_
  split
  next =>
    refine spawn (update_same (update_same h fun _ _ => rfl) fun y _ => ?_)
    split
    next hphase => exact references_eq_of_phase rfl rfl rfl (by rw [hphase]; rfl)
    next => rfl
  next => exact h

/-! ## New scopes and pools -/

/-- A pool is made. -/
theorem addPool (h : Balanced L w due) (pool : Pool) :
    Balanced L { w with pools := w.pools ++ [pool] } due where
  counted := h.counted
  lt_of_record := h.lt_of_record
  alive s scope hscope hown := by
    obtain ⟨old, hold, hkind⟩ := h.alive s scope hscope hown
    refine ⟨old, ?_, hkind⟩
    rw [List.getElem?_append_left (List.getElem?_eq_some_iff.mp hold).1, hold]
  taken s scope record hscope hrecord hmade hown := by
    obtain ⟨old, hold, hkind⟩ := h.taken s scope record hscope hrecord hmade hown
    refine ⟨old, ?_, hkind⟩
    rw [List.getElem?_append_left (List.getElem?_eq_some_iff.mp hold).1, hold]
  unique := h.unique

/-- The pool that a scope has, or was made with, was made for it. -/
theorem exists_pool {scope : Scope} (h : Balanced L w due) (hscope : w.scopes[s]? = some scope)
    (hkept : Keeps L s scope) :
    ∃ pool : Pool, w.pools[scope.pool]? = some pool ∧ pool.forScope = true := by
  cases hown : scope.owns with
  | true =>
    obtain ⟨pool, hpool, hkind, -⟩ := h.alive s scope hscope hown
    exact ⟨pool, hpool, hkind⟩
  | false =>
    obtain ⟨record, hrecord, hmade⟩ := hkept.resolve_left (by simp [hown])
    obtain ⟨pool, hpool, hkind, -⟩ := h.taken s scope record hscope hrecord hmade hown
    exact ⟨pool, hpool, hkind⟩

/-- A pool that is made is not that of a scope that was there before. -/
theorem pool_lt {scope : Scope} (h : Balanced L w due) (hscope : w.scopes[s]? = some scope)
    (hkept : Keeps L s scope) : scope.pool < w.pools.length := by
  obtain ⟨pool, hpool, -⟩ := h.exists_pool hscope hkept
  exact (List.getElem?_eq_some_iff.mp hpool).1

/-- A scope that is made is the last one. -/
theorem getElem?_addScope {l : List Scope} {scope scope' : Scope} {t : ScopeId}
    (h : (l ++ [scope])[t]? = some scope') :
    l[t]? = some scope' ∨ t = l.length ∧ scope' = scope := by
  rw [List.getElem?_append] at h
  split at h
  next => exact .inl h
  next hle =>
    have hindex := (List.getElem?_eq_some_iff.mp h).1
    have hle' : t ≤ l.length := Nat.sub_eq_zero_iff_le.mp (Nat.lt_one_iff.mp hindex)
    exact .inr ⟨Nat.le_antisymm hle' (Nat.le_of_not_lt hle),
      List.mem_singleton.mp (List.mem_of_getElem? h)⟩

/-- Nothing is on record of a scope that there is not. -/
theorem ledger_length (h : Balanced L w due) : L w.scopes.length = none := by
  by_contra hsome
  obtain ⟨record, hrecord⟩ := Option.ne_none_iff_exists'.mp hsome
  exact Nat.lt_irrefl _ (h.lt_of_record _ record hrecord)

/-- The next scope to be made was not made with a pool before. -/
theorem owns_of_keeps {scope : Scope} (h : Balanced L w due)
    (hkept : Keeps L w.scopes.length scope) : scope.owns = true := by
  refine hkept.resolve_right ?_
  rintro ⟨record, hrecord, -⟩
  cases h.ledger_length.symm.trans hrecord

/-- A scope is made, and its caller holds the reference. -/
theorem addScope {scope : Scope} (h : Balanced L w [])
    (hlt : ∀ t ∈ w.references, t < w.scopes.length) (hreferences : scope.references = 1)
    (hopen : scope.closed = false) (hclosing : scope.closing = none)
    (howns : scope.owns = true → (∃ pool : Pool, w.pools[scope.pool]? = some pool ∧
        pool.forScope = true ∧ pool.alive = true) ∧
      ∀ (t : ScopeId) (scope' : Scope), w.scopes[t]? = some scope' → Keeps L t scope' →
        scope'.pool ≠ scope.pool) :
    Balanced L { w with scopes := w.scopes ++ [scope], held := w.scopes.length :: w.held } [] where
  counted t scope' hscope' := by
    show scope'.Counted ((w.scopes.length :: w.references ++ []).count t) (L t)
    rw [List.append_nil]
    rcases getElem?_addScope hscope' with hold | ⟨rfl, rfl⟩
    · rw [List.count_cons_of_ne (Nat.ne_of_gt (List.getElem?_eq_some_iff.mp hold).1)]
      have hcount := h.counted t scope' hold
      rwa [List.append_nil] at hcount
    · -- Nobody has referred to the scope before it was there.
      have hzero : w.references.count w.scopes.length = 0 :=
        List.count_eq_zero.mpr fun hmem => Nat.lt_irrefl _ (hlt _ hmem)
      rw [h.ledger_length, List.count_cons_self, hzero]
      refine ⟨?_, fun hsome => ?_, fun _ => ⟨?_, .inl hopen⟩, nofun, nofun, nofun⟩
      · rw [hclosing, hreferences]
        rfl
      · rw [hclosing] at hsome
        cases hsome
      · rw [hreferences]
        exact Nat.one_pos
  lt_of_record t record ht := by
    rw [List.length_append]
    exact Nat.lt_add_right _ (h.lt_of_record t record ht)
  alive t scope' hscope' hown := by
    rcases getElem?_addScope hscope' with hold | ⟨rfl, rfl⟩
    · exact h.alive t scope' hold hown
    · exact (howns hown).1
  taken t scope' record hscope' hrecord hmade hown := by
    rcases getElem?_addScope hscope' with hold | ⟨rfl, rfl⟩
    · exact h.taken t scope' record hold hrecord hmade hown
    · cases h.ledger_length.symm.trans hrecord
  unique t u scope₁ scope₂ ht hu hkept₁ hkept₂ hsame := by
    rcases getElem?_addScope ht with hold₁ | ⟨rfl, rfl⟩ <;>
      rcases getElem?_addScope hu with hold₂ | ⟨rfl, rfl⟩
    · exact h.unique t u scope₁ scope₂ hold₁ hold₂ hkept₁ hkept₂ hsame
    · exact absurd hsame ((howns (h.owns_of_keeps hkept₂)).2 t scope₁ hold₁ hkept₁)
    · exact absurd hsame.symm ((howns (h.owns_of_keeps hkept₁)).2 u scope₂ hold₂ hkept₂)
    · rfl

end Balanced

/-- Nobody refers to a scope that there is not. -/
theorem Valid.references_lt (hw : w.Valid) (hs : s ∈ w.references) : s < w.scopes.length := by
  rcases List.mem_append.mp hs with hheld | hreservations
  · exact hw.held_lt s hheld
  · obtain ⟨x, hx, hmem⟩ := List.mem_flatMap.mp hreservations
    obtain ⟨r, hr⟩ := List.getElem?_of_mem hx
    refine hw.scope_lt r x hr s ?_
    unfold Reservation.references Reservation.mentions at hmem
    split at hmem <;> split at hmem <;> simp_all

end System

end Deferral
