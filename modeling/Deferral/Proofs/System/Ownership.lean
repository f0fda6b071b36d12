import Deferral.Proofs.System.References

/-!
# What becomes of the pool of a scope

A call of shutdown that finds a scope open closes it, and is the only one that does anything.
`shuts?` says which call does so in an action, and `shutBy?` which one has done so in a run. A scope
that was made with a pool of its own has it for as long as anybody refers to it and it was not shut
down. Then the pool is taken out, once: by the call that has closed the scope, as it asks for, or
with the last reference, in the background.

Main statements:
* `balanced_run`: in every run, the references to every scope are counted.
* `Balanced.act`, `Balanced.run`: and the scopes that are followed agree with their records.
* `poolAlive_run`: a scope that has its own pool keeps it as long as it is open and referred to.
-/

namespace Deferral.System

variable {V : Type} {w w' : System V} {L : Ledger} {s : ScopeId} {a : Action V}

/-! ## Calls of shutdown -/

/-- The call of shutdown by which an action closes the scope `s`, if it does. A computation calls
from inside a pool, and waits as long as the scope's settings say. -/
def shuts? (s : ScopeId) (w : System V) : Action V → Option Closing
  | .beginShutdown t closing =>
    if t = s ∧ t ∈ w.held ∧ w.isClosed t = false then some closing else none
  | .step p =>
    (w.reservations[p]?).bind fun x =>
      match x.phase, x.rest with
      | .active .step, .shutdown t _ =>
        if t = s ∧ w.isClosed t = false then
          some { limit := ((w.scopes[t]?).map Scope.grace).getD .zero, inside := true }
        else none
      | _, _ => none
  | _ => none

/-- The call of shutdown by which a run closes the scope `s`, if it does. -/
def shutBy? (s : ScopeId) (w : System V) : List (Action V) → Option Closing
  | [] => none
  | a :: actions => (w.shuts? s a).or (shutBy? s (w.act a) actions)

/-- What is on record after an action. -/
def entered (L : Ledger) (w : System V) (a : Action V) : Ledger := fun s =>
  (L s).map fun record => { record with shutBy := record.shutBy.or (w.shuts? s a) }

/-- What is on record after a run. -/
def enteredAll (L : Ledger) (w : System V) (actions : List (Action V)) : Ledger := fun s =>
  (L s).map fun record => { record with shutBy := record.shutBy.or (shutBy? s w actions) }

/-- Without a call of shutdown nothing goes on record. -/
theorem entered_of_none (h : ∀ s, w.shuts? s a = none) : entered L w a = L := by
  funext s
  rw [entered, h s]
  rcases L s with _ | record
  · rfl
  · rw [Option.map_some, Option.or_none]

/-- A call of shutdown that closes a scope goes on record. -/
theorem entered_of_some {closing : Closing} (h : Balanced L w []) (hopen : w.isClosed s = false)
    (hshuts : ∀ t, w.shuts? t a = if s = t then some closing else none) :
    entered L w a = L.shut s closing := by
  funext t
  rw [entered, hshuts]
  by_cases ht : s = t
  · subst ht
    rw [Ledger.shut, if_pos rfl, if_pos rfl]
    rcases hrecord : L s with _ | record
    · rfl
    · -- The scope was open, so that nothing was on record.
      have hscope := List.getElem?_eq_getElem (h.lt_of_record s record hrecord)
      have hclosed := (h.counted s _ hscope).closed_eq record hrecord
      rw [isClosed, hscope, Option.any_some] at hopen
      rw [hopen] at hclosed
      have hnever : record.shutBy = none := by simpa using hclosed.symm
      rw [Option.map_some, Option.map_some, hnever, Option.none_or]
  · rw [if_neg ht, Ledger.shut_of_ne ht]
    rcases L t with _ | record
    · rfl
    · rw [Option.map_some, Option.or_none]

theorem enteredAll_nil (L : Ledger) (w : System V) : enteredAll L w [] = L := by
  funext s
  rw [enteredAll, shutBy?]
  rcases L s with _ | record
  · rfl
  · rw [Option.map_some, Option.or_none]

theorem enteredAll_cons (L : Ledger) (w : System V) (a : Action V) (actions : List (Action V)) :
    enteredAll L w (a :: actions) = enteredAll (entered L w a) (w.act a) actions := by
  funext s
  rw [enteredAll, enteredAll, entered, Option.map_map]
  rcases L s with _ | record
  · rfl
  · rw [Option.map_some, Option.map_some, shutBy?, Function.comp_apply, Option.or_assoc]

/-- A call of shutdown that finds the scope closed changes nothing. -/
theorem beginShutdown_of_isClosed {closing : Closing} (h : w.isClosed s = true) :
    w.beginShutdown s closing = w := by
  obtain ⟨scope, hscope, hclosed⟩ := (Option.any_eq_true _ _).mp h
  simp only [beginShutdown, hscope, hclosed, if_true]

/-! ## Runs -/

/-- A step of a computation leaves the references counted. -/
theorem Balanced.act_step (h : Balanced L w []) (p : ReservationId) :
    Balanced (entered L w (.step p)) (w.act (.step p)) [] := by
  -- The step is a call of shutdown that closes a scope, or nothing goes on record.
  by_cases hshuts : ∃ x s rest, w.reservations[p]? = some x ∧ x.phase = .active .step ∧
      x.rest = .shutdown s rest ∧ w.isClosed s = false
  · obtain ⟨x, s, rest, hx, hphase, hrest, hopen⟩ := hshuts
    rw [entered_of_some h hopen fun t => ?_]
    · exact h.step_shutdown hx hphase hrest hopen
    · simp [shuts?, hx, hphase, hrest, hopen]
  · rw [entered_of_none fun t => ?_]
    · refine h.step fun x s rest hx hphase hrest => ?_
      by_contra hopen
      exact hshuts ⟨x, s, rest, hx, hphase, hrest, Bool.eq_false_iff.mpr hopen⟩
    · by_contra hne
      obtain ⟨closing, hclosing⟩ := Option.ne_none_iff_exists'.mp hne
      obtain ⟨x, hx, hmatch⟩ := Option.bind_eq_some_iff.mp hclosing
      split at hmatch
      next s rest hphase hrest =>
        split at hmatch
        next hs => exact hshuts ⟨x, s, rest, hx, hphase, hrest, hs.2⟩
        next => cases hmatch
      next => cases hmatch

/-- A call of shutdown leaves the references counted. -/
theorem Balanced.act_beginShutdown (h : Balanced L w []) (s : ScopeId) (closing : Closing) :
    Balanced (entered L w (.beginShutdown s closing)) (w.act (.beginShutdown s closing)) [] := by
  -- The call closes the scope if its caller holds a reference and it was open.
  by_cases hcalls : s ∈ w.held ∧ w.isClosed s = false
  · obtain ⟨hheld, hopen⟩ := hcalls
    have hshuts (t : ScopeId) : w.shuts? t (.beginShutdown s closing) =
        if s = t then some closing else none := by
      simp [shuts?, hheld, hopen]
    rw [entered_of_some h hopen hshuts, System.act, if_pos hheld]
    exact h.beginShutdown (List.mem_append_left _ (List.mem_append_left _ hheld)) hopen
  · have hsame : w.act (.beginShutdown s closing) = w := by
      rw [System.act]
      split
      next hheld =>
        refine beginShutdown_of_isClosed ?_
        by_contra hopen
        exact hcalls ⟨hheld, Bool.eq_false_iff.mpr hopen⟩
      next => rfl
    rw [entered_of_none fun t => ?_, hsame]
    · exact h
    · rw [shuts?, if_neg fun hshuts => hcalls hshuts.2]

/-- Every action leaves the references counted, and goes on record. -/
theorem Balanced.act (h : Balanced L w []) (hw : w.Valid) (a : Action V) :
    Balanced (entered L w a) (w.act a) [] := by
  by_cases hstep : ∃ p, a = .step p
  · obtain ⟨p, rfl⟩ := hstep
    exact h.act_step p
  by_cases hbegin : ∃ s closing, a = .beginShutdown s closing
  · obtain ⟨s, closing, rfl⟩ := hbegin
    exact h.act_beginShutdown s closing
  -- Everything else closes no scope.
  rw [entered_of_none fun t => by cases a <;> simp_all [shuts?]]
  cases a with
  | step p => exact absurd ⟨p, rfl⟩ hstep
  | beginShutdown s closing => exact absurd ⟨s, closing, rfl⟩ hbegin
  | build settings =>
    rw [System.act]
    split
    next hbuild =>
      obtain ⟨pool, hkind, halive, -, rfl⟩ := eq_of_build w hbuild
      refine (h.addPool pool).addScope (fun t ht => hw.references_lt ht) rfl rfl rfl fun _ =>
        ⟨⟨pool, List.getElem?_concat_length .., hkind, halive⟩, fun t scope' hscope' hkept => ?_⟩
      exact Nat.ne_of_lt (h.pool_lt hscope' hkept)
    next => exact h
  | borrow name p =>
    rw [System.act]
    split
    next => exact h.addScope (fun t ht => hw.references_lt ht) rfl rfl rfl (by simp)
    next => exact h
  | share s => exact h.share
  | unshare s => exact h.unshare
  | finishShutdown s => exact h.finishShutdown
  | reserve s name label computation => exact h.reserveFor
  | reshape r shape => exact h.onOffered fun _ => h.update_same fun _ _ => rfl
  | use r u => exact h.use u
  | poll r waker => exact h.onOffered fun _ => h.update_same fun _ _ => rfl
  | fetch r => exact h.onOffered fun _ => h.update_same fun _ _ => rfl
  | expire r => exact h.expire
  | complete r => exact h.onOffered fun _ => h.update_same fun _ _ => rfl
  | cancel r => exact h.cancel
  | drop r => exact h.onOffered fun _ => h.dropHandle
  | runDirectly r => exact h.runDirectly
  | testClosed r => exact h.testClosed
  | spawn r => exact h.spawn
  | letGo r => exact h.letGo
  | attach r => exact h.attach
  | resume r => exact h.resume
  | dropTask r => exact h.dropTask
  | openGate g =>
    rw [System.act, openGate]
    split
    next => exact h
    next => exact h.of_perm rfl rfl (List.Perm.refl _)
  | pass t => exact h.of_perm rfl rfl (List.Perm.refl _)
  | addPool pool => exact h.addPool _
  | stopPool p stop =>
    rw [System.act]
    split
    next => exact h
    next hscopes =>
      refine h.stopPool fun s scope hscope hkept hp => hscopes ?_
      obtain ⟨pool, hpool, hkind⟩ := h.exists_pool hscope hkept
      rw [isScopes, ← hp, hpool]
      exact hkind

/-- Every run leaves the references counted, and goes on record. -/
theorem Balanced.run (h : Balanced L w []) (hw : w.Valid) (actions : List (Action V)) :
    Balanced (enteredAll L w actions) (w.run actions) [] := by
  induction actions generalizing L w with
  | nil => rwa [enteredAll_nil]
  | cons a actions ih =>
    rw [enteredAll_cons, run_cons]
    exact ih (h.act hw a) (hw.act a)

/-- In every run, the references to every scope are counted. -/
theorem balanced_run (actions : List (Action V)) :
    Balanced (fun _ => none) (run {} actions) [] := by
  have hempty : Balanced (fun _ => none) ({} : System V) [] :=
    ⟨by simp, nofun, by simp, by simp, by simp⟩
  exact hempty.run (valid_run []) actions

/-- What there is on record of the scopes that are open now. -/
def ledger (w : System V) : Ledger := fun s =>
  (w.scopes[s]?).bind fun scope => if scope.closed then none else some { built := scope.owns }

/-- Scopes that are open can be followed from now on. -/
theorem Balanced.follow (h : Balanced (fun _ => none) w []) : Balanced w.ledger w [] := by
  have hledger {t : ScopeId} {record : Record} (hrecord : w.ledger t = some record) :
      ∃ scope, w.scopes[t]? = some scope ∧ scope.closed = false ∧
        record = { built := scope.owns } := by
    obtain ⟨scope, hscope, hsome⟩ := Option.bind_eq_some_iff.mp hrecord
    split at hsome
    next => cases hsome
    next hopen => exact ⟨scope, hscope, Bool.eq_false_iff.mpr hopen, (Option.some.inj hsome).symm⟩
  -- The records are those of the scopes as they are, so one that is recorded as
  -- built owns its pool.
  have hown {t : ScopeId} {scope : Scope} (hscope : w.scopes[t]? = some scope)
      (hkept : Keeps w.ledger t scope) : scope.owns = true := by
    refine hkept.elim id ?_
    rintro ⟨record, hrecord, hmade⟩
    obtain ⟨scope', hscope', -, rfl⟩ := hledger hrecord
    obtain rfl := Option.some.inj (hscope.symm.trans hscope')
    exact hmade
  refine ⟨fun t scope hscope => ?_, fun t record hrecord => ?_, h.alive,
    fun t scope record hscope hrecord hmade hown => ?_,
    fun t u scope scope' ht hu hkept hkept' =>
      h.unique t u scope scope' ht hu (.inl (hown ht hkept)) (.inl (hown hu hkept'))⟩
  · have hcounted := h.counted t scope hscope
    refine ⟨hcounted.references_eq, hcounted.closed_of_closing, hcounted.of_owns,
      fun record hrecord hmade _ _ => ?_, fun record hrecord => ?_, fun record hrecord c hc => ?_⟩
    · exact hown hscope (.inr ⟨record, hrecord, hmade⟩)
    · obtain ⟨scope', hscope', hopen, rfl⟩ := hledger hrecord
      obtain rfl := Option.some.inj (hscope.symm.trans hscope')
      exact hopen
    · obtain ⟨scope', hscope', hopen, rfl⟩ := hledger hrecord
      obtain rfl := Option.some.inj (hscope.symm.trans hscope')
      cases hopen.symm.trans (hcounted.closed_of_closing (by rw [hc]; rfl))
  · obtain ⟨scope, hscope, -⟩ := hledger hrecord
    exact (List.getElem?_eq_some_iff.mp hscope).1
  · obtain ⟨scope', hscope', -, rfl⟩ := hledger hrecord
    obtain rfl := Option.some.inj (hscope.symm.trans hscope')
    cases hmade.symm.trans hown

/-- In every run, a scope that has its own pool keeps it for as long as it is open and
anybody refers to it. -/
theorem poolAlive_run {actions further : List (Action V)} {scope : Scope}
    (hscope : (run {} actions).scopes[s]? = some scope) (hown : scope.owns = true)
    (hreferred : s ∈ ((run {} actions).run further).references)
    (hopen : ((run {} actions).run further).isClosed s = false) :
    ((run {} actions).run further).poolAlive s = true := by
  have hbefore : scope.closed = false := by
    by_contra hclosed
    have hlater := isClosed_run (s := s) (w := run {} actions)
      (by rw [isClosed, hscope, Option.any_some]; simpa using hclosed) further
    cases hopen.symm.trans hlater
  have hrecord : (run {} actions).ledger s = some { built := true } := by
    rw [ledger, hscope, Option.bind_some, if_neg (by simp [hbefore]), hown]
  have hbalanced := (balanced_run actions).follow.run (valid_run actions) further
  obtain ⟨scope', hscope', -⟩ := (ages_run (run {} actions) further).exists_scope hscope
  have hcounted := hbalanced.counted s scope' hscope'
  rw [isClosed, hscope', Option.any_some] at hopen
  -- The scope is open and referred to, so it was not given up: it has its pool still.
  have hown' : scope'.owns = true := by
    refine hcounted.owns_of_built _ (by rw [enteredAll, hrecord]; rfl) rfl ?_ (.inl hopen)
    rw [hcounted.references_eq, List.append_nil]
    exact Nat.add_pos_left (List.count_pos_iff.mpr hreferred) _
  obtain ⟨pool, hpool, -, halive⟩ := hbalanced.alive s scope' hscope' hown'
  rw [poolAlive, hscope']
  simp only [hpool, Option.any_some, halive]

end Deferral.System
