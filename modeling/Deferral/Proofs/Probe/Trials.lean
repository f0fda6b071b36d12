import Deferral.Probe.Basic
import Deferral.Proofs.Probe.Extraction
import Deferral.Proofs.System.Holding
import Deferral.Proofs.System.Quiescence
import Deferral.Proofs.System.Retention

/-!
# What comes of the trials

A probe that has built its scope keeps it open while it tries one shape after the other. It reserves
nothing but computations that sleep and then echo the value, never waits for a gate, and never asks
for an abort of what it still waits for. So the scheduler brings every computation to its end, and
every wait is answered with the value. Only a mono can be answered with a time-out, and what it has
left behind does not disturb the trials after it.

Main statements:
* `exists_trial`: every trial comes to an end, and what it comes to.
* `exists_trials`: there is one trial for each shape, in order.
-/

namespace Deferral.Probe

open Deferral.System

variable {o : Options} {c : Settings} {s : ScopeId} {w₀ w : System String}
  {actions : List (Action String)} {r : ReservationId} {x : Reservation String}

/-! ## What the probe does -/

/-- What a probe with these options does when it has the scope `s`. -/
inductive Does (o : Options) (s : ScopeId) : Action String → Prop
  /-- It reserves a computation. -/
  | reserve (label : String) : Does o s (.reserve s (some echoName) label (echo o))
  /-- It turns a reservation into a handle. -/
  | reshape (r : ReservationId) (shape : Deferral.Shape) : Does o s (.reshape r shape)
  /-- It begins an operation. -/
  | use (r : ReservationId) (u : Use) : Does o s (.use r u)
  /-- It polls. -/
  | poll (r : ReservationId) (k : Waker) : Does o s (.poll r k)
  /-- It looks for the outcome. -/
  | fetch (r : ReservationId) : Does o s (.fetch r)
  /-- Its time is up. -/
  | expire (r : ReservationId) : Does o s (.expire r)
  /-- It drops a handle. -/
  | drop (r : ReservationId) : Does o s (.drop r)
  /-- Something happens that nobody attends to. -/
  | unattended {a : Action String} (ha : a.isUnattended = true) : Does o s a

/-- The probe consumes a reservation by such actions. -/
theorem does_of_mem_actions (o : Options) (s : ScopeId) (r : ReservationId) (shape : Shape) :
    ∀ a ∈ shape.actions o r, Does o s a := by
  have hlaunch : ∀ a ∈ launch r, Does o s a := by
    simp only [launch, List.forall_mem_cons]
    exact ⟨.unattended rfl, .unattended rfl, .unattended rfl, .unattended rfl,
      List.forall_mem_nil _⟩
  cases shape with
  | block => exact List.forall_mem_cons.mpr ⟨.use .., hlaunch⟩
  | spawn =>
    exact List.forall_mem_append.mpr
      ⟨List.forall_mem_cons.mpr ⟨.use .., hlaunch⟩, List.forall_mem_singleton.mpr (.use ..)⟩
  | mono | maybe | stream =>
    exact List.forall_mem_cons.mpr ⟨.reshape .., List.forall_mem_cons.mpr ⟨.use .., hlaunch⟩⟩

/-- The computation is echoing the value, or is about to finish with it. -/
theorem after_echo (o : Options) (n : Nat) :
    (echo o).after n = echo o ∨ (echo o).after n = .finish (.value o.value) := by
  induction n with
  | zero => exact .inl rfl
  | succ n ih =>
    refine .inr ?_
    rcases ih with h | h <;> rw [Computation.after, h] <;> rfl

/-- So is a reservation of the computation, in every run. -/
theorem rest_cases (hx : (run {} actions).reservations[r]? = some x)
    (hecho : x.computation = echo o) : x.rest = echo o ∨ x.rest = .finish (.value o.value) := by
  rw [(sound_run hx).rest_eq, hecho]
  exact after_echo o _

/-! ## The scope -/

section

variable (hdoes : ∀ a ∈ actions, Does o s a)

include hdoes

/-- Everything that was reserved was reserved by the probe, on its scope, and echoes the value. -/
theorem echoes (hx : (run {} (.build c :: actions)).reservations[r]? = some x) :
    x.parent = none ∧ x.scope = s ∧ x.computation = echo o := by
  induction actions using List.reverseRecOn generalizing r x with
  | nil =>
    have hx' : (act {} (.build c)).reservations[r]? = some x := hx
    rcases new_or_changes_of_act hx' with hnew | ⟨y, hy, -⟩
    · cases hnew
    · cases hy
  | append_singleton actions a ih =>
    have hearly := fun b hb => hdoes b (List.mem_append_left _ hb)
    rw [← List.cons_append, run_concat] at hx
    rcases new_or_changes_of_act hx with hnew | ⟨y, hy, hchanges⟩
    · have ha := hdoes a (List.mem_append_right _ (List.mem_singleton_self a))
      cases hnew with
      | reserve =>
        cases ha with
        | reserve => exact ⟨rfl, rfl, rfl⟩
        | unattended ha => cases ha
      | await hy hphase hrest =>
        -- No step of the computation is to wait for another one.
        obtain ⟨-, -, hecho⟩ := ih hearly hy
        rcases rest_cases hy hecho with h | h <;> cases hrest.symm.trans h
    · have hgrows := hchanges.grows
      obtain ⟨hparent, hscope, hecho⟩ := ih hearly hy
      exact ⟨hgrows.parent_eq.trans hparent, hgrows.scope_eq.trans hscope,
        hgrows.computation_eq.trans hecho⟩

/-- No computation waits for a gate. -/
theorem ne_gate (hx : (run {} (.build c :: actions)).reservations[r]? = some x) (g : String) :
    x.phase ≠ .paused (.gate g) := by
  intro hphase
  obtain ⟨rest, hrest⟩ := (placed_run hx).fits _ hphase
  rcases rest_cases hx (echoes hdoes hx).2.2 with h | h <;> cases hrest.symm.trans h

/-- The probe shuts its scope down neither itself nor through a computation. -/
theorem shutBy?_eq_none (t : ScopeId) : shutBy? t (run {} [.build c]) actions = none := by
  induction actions using List.reverseRecOn with
  | nil => rfl
  | append_singleton actions a ih =>
    have hearly := fun b hb => hdoes b (List.mem_append_left _ hb)
    rw [shutBy?_concat, ih hearly, Option.none_or]
    cases hdoes a (List.mem_append_right _ (List.mem_singleton_self a)) with
    | reserve | reshape | use | poll | fetch | expire | drop => rfl
    | unattended ha =>
      cases a with
      | step p =>
        rw [shuts?]
        cases hy : ((run {} [.build c]).run actions).reservations[p]? with
        | none => rfl
        | some y =>
          rw [Option.bind_some]
          split
          next rest hphase hrest =>
            rw [← run_append] at hy
            -- An echo is never about to shut a scope down.
            rcases rest_cases hy (echoes hearly hy).2.2 with h | h <;> cases hrest.symm.trans h
          next => rfl
      | beginShutdown => cases ha
      | _ => rfl

variable (hbuild : ({} : System String).build c = .built s w₀)

include hbuild

/-- The probe keeps its reference to the scope. -/
theorem mem_held : s ∈ (run {} (.build c :: actions)).held := by
  induction actions using List.reverseRecOn with
  | nil =>
    obtain ⟨pool, -, -, rfl, rfl⟩ := eq_of_build _ hbuild
    rw [run_cons, run_nil, act_build _ hbuild]
    exact List.mem_cons_self
  | append_singleton actions a ih =>
    have hearly := fun b hb => hdoes b (List.mem_append_left _ hb)
    rw [← List.cons_append, run_concat]
    refine mem_held_act (ih hearly) ?_
    rintro rfl
    cases hdoes _ (List.mem_append_right _ (List.mem_singleton_self _)) with
    | unattended ha => cases ha

/-- So the scope is open and has its pool. -/
theorem exists_scope : ∃ scope, (run {} (.build c :: actions)).scopes[s]? = some scope ∧
    scope.owns = true ∧ scope.closed = false := by
  have hmade : (run {} [] : System String).Made (.build c) s true := .build hbuild
  obtain ⟨scope₀, hscope₀, hown₀, hopen₀⟩ := hmade.exists_scope
  have hrun : (run {} [] : System String).act (.build c) = run {} [.build c] := rfl
  rw [hrun] at hscope₀
  obtain ⟨scope, hscope, -⟩ := (ages_run (run {} [.build c]) actions).exists_scope hscope₀
  have hstanding := standing_run hscope₀ hopen₀ hscope
  rw [hown₀, shutBy?_eq_none hdoes s] at hstanding
  refine ⟨scope, hscope, hstanding.owns_iff.mpr ⟨rfl, ?_, .inl hstanding.closed_eq⟩,
    hstanding.closed_eq⟩
  -- The probe's own reference is one of those that are counted.
  obtain ⟨hcounted, -⟩ := counted_run hscope₀ hopen₀ hscope rfl
  have hheld : 0 < (run {} (.build c :: actions)).references.count s :=
    List.count_pos_iff.mpr (List.mem_append_left _ (mem_held hdoes hbuild))
  have hreferences := hcounted.references_eq
  rw [← run_append, List.singleton_append] at hreferences
  omega

end

/-! ## One computation -/

/-- Without a request an abort is not asked for. -/
theorem aborted_eq_false {early further : List (Action String)} {x' : Reservation String}
    (hx : (run {} early).reservations[r]? = some x) (hparent : x.parent = none)
    (haborted : x.aborted = false)
    (hfurther : ∀ a ∈ further, a ≠ .cancel r ∧ a ≠ .expire r ∧ a ≠ .drop r)
    (hx' : ((run {} early).run further).reservations[r]? = some x') : x'.aborted = false := by
  induction hx' using run_induction_from hx with
  | start => exact haborted
  | @act further a y _ _ hy hgrows hchanges ih =>
    have hspared := ih fun b hb => hfurther b (List.mem_append_left _ hb)
    by_contra hne
    have haborted := (Changes.accounted hchanges).aborted (eq_true_of_ne_false hne)
    rcases haborted with hbefore | hasks
    · cases hspared.symm.trans hbefore
    · obtain ⟨hcancel, hexpire, hdrop⟩ :=
        hfurther a (List.mem_append_right _ (List.mem_singleton_self a))
      rw [← run_append] at hy hasks
      -- Only its caller could ask, since no computation waits for it.
      have hhandle := (hasks.handles.caller_of_parent_eq_none hy (hgrows.parent_eq.trans hparent)).1
      cases hasks with
      | cancel => exact hcancel rfl
      | expire => exact hexpire rfl
      | drop => exact hdrop rfl
      | dropTask | step => cases hhandle

section

variable (hdoes : ∀ a ∈ actions, Does o s a)

include hdoes

/-- The scheduler brings all to rest that the probe has begun. -/
theorem atRest_quiesce_quiesce :
    (((run {} (.build c :: actions)).quiesce none).quiesce none).AtRest := by
  obtain ⟨schedule, hschedule, hfirst⟩ :=
    (scheduled_quiesce none (run {} (.build c :: actions))).exists_run
  rw [hfirst, List.cons_append]
  refine atRest_quiesce fun r x g hx => ?_
  obtain ⟨schedule', hschedule', hsecond⟩ :=
    (scheduled_quiesce none (run {} (.build c :: (actions ++ schedule)))).exists_run
  rw [hsecond, List.cons_append] at hx
  refine ne_gate (o := o) (s := s) (List.forall_mem_append.mpr ⟨List.forall_mem_append.mpr
    ⟨hdoes, fun a ha => .unattended (hschedule a ha)⟩, fun a ha => .unattended (hschedule' a ha)⟩)
    hx g

variable (hbuild : ({} : System String).build c = .built s w₀)

include hbuild

/-- The probe reserves the computation. -/
theorem exists_reserved (label : String) : ∃ x,
    (run {} (.build c :: (actions ++ [.reserve s (some echoName) label (echo o)]))).reservations[
        (run {} (.build c :: actions)).reservations.length]? = some x ∧
      Reserved (run {} (.build c :: actions)).reservations.length x ∧ x.aborted = false := by
  have hheld : ∀ t ∈ s :: (echo o).mentions, t ∈ (run {} (.build c :: actions)).held :=
    List.forall_mem_singleton.mpr (mem_held hdoes hbuild)
  rw [← List.cons_append, run_concat, act, reserveFor, if_pos hheld, reservations_reserve,
    List.getElem?_concat_length]
  exact ⟨_, rfl, ⟨rfl, rfl, rfl⟩, rfl⟩

/-- When a caller has blocked on such a reservation and all is at rest, the value was
published, and nothing else. -/
theorem outcomes_echo {late : List (Action String)} {x' : Reservation String}
    (hx : (run {} (.build c :: actions)).reservations[r]? = some x) (hreserved : Reserved r x)
    (haborted : x.aborted = false) (hlate : ∀ a ∈ late, a.isUnattended = true)
    (hx' : (run {} (.build c :: (actions ++ .use r (.block none) :: late))).reservations[r]? =
      some x') :
    (∀ e ∈ x'.outcomes, e = .ok o.value) ∧
      ((run {} (.build c :: (actions ++ .use r (.block none) :: late))).AtRest →
        x'.phase.isLaunched = true → x'.outcomes ≠ []) := by
  have hstarts : (Action.use r (.block none) : Action String).starts r x = true :=
    Action.starts_iff.mpr ⟨by simp [isOffered, hreserved.parent_eq, hreserved.phase_eq],
      by simp [Consumer.begin, hreserved.handle_eq]⟩
  have hdoes' : ∀ a ∈ actions ++ .use r (.block none) :: late, Does o s a :=
    List.forall_mem_append.mpr ⟨hdoes, List.forall_mem_cons.mpr
      ⟨.use .., fun a ha => .unattended (hlate a ha)⟩⟩
  obtain ⟨-, hscope, -⟩ := echoes hdoes hx
  obtain ⟨-, hscope', hecho⟩ := echoes hdoes' hx'
  have hspared : x'.aborted = false := by
    refine aborted_eq_false hx hreserved.parent_eq haborted (fun a ha => ?_) (by rwa [← run_append])
    rcases List.mem_cons.mp ha with rfl | ha
    · refine ⟨?_, ?_, ?_⟩ <;> intro heq <;> cases heq
    · have hquiet := hlate a ha
      refine ⟨?_, ?_, ?_⟩ <;> rintro rfl <;> cases hquiet
  obtain ⟨scope, hat, hown, -⟩ := exists_scope hdoes hbuild
  obtain ⟨scope', hat', -, hopen⟩ := exists_scope hdoes' hbuild
  rw [← hscope] at hat
  have hretention : Retention r (.build c :: actions) (.block none) late x' := by
    refine retention_run hx hat hown hstarts hx' ?_ hspared
    rw [hscope, List.cons_append, isClosed, hat', Option.any_some]
    exact hopen
  -- The probe has kept its reference, so the computation was not forsaken.
  have hkept : ¬Forsaken r (run {} (.build c :: actions)) (.use r (.block none) :: late) := by
    refine hretention.shared fun before after hsplit => ?_
    have hbefore : ∀ a ∈ actions ++ before, Does o s a := fun a ha => by
      refine hdoes' a ?_
      rw [hsplit, ← List.append_assoc]
      exact List.mem_append_left _ ha
    rw [hscope', ← run_append, List.cons_append]
    exact mem_held hbefore hbuild
  refine ⟨fun e he => ?_, hretention.returns⟩
  rw [(hretention.keeps hkept).only e he, hecho]
  rfl

/-- A caller that blocks on such a reservation is answered with the value. -/
theorem wait_block (hx : (run {} (.build c :: actions)).reservations[r]? = some x)
    (hreserved : Reserved r x) (haborted : x.aborted = false) :
    (Shape.block.wait r ((run {} (.build c :: actions)).run (Shape.block.actions o r))).2 =
      some (.outcome (.ok o.value)) := by
  obtain ⟨e?, he, hwait⟩ := exists_wait_block hx hreserved o
  have hrest := atRest_quiesce_quiesce (c := c)
    (List.forall_mem_append.mpr ⟨hdoes, does_of_mem_actions o s r .block⟩)
  rw [← List.cons_append, run_append] at hrest
  -- What happens after the operation has begun is one run that nobody attends to.
  obtain ⟨schedule, hschedule, hend⟩ := (scheduled_quiesce none ((run {} (.build c :: actions)).run
    (Shape.block.actions o r))).trans (scheduled_quiesce none _)
  have hrun :
      (((run {} (.build c :: actions)).run (Shape.block.actions o r)).quiesce none).quiesce none =
      run {} (.build c :: (actions ++ .use r (.block none) :: (launch r ++ schedule))) := by
    rw [hend, ← run_append, ← run_append]
    simp only [Shape.actions, List.cons_append]
  have hlate : ∀ a ∈ launch r ++ schedule, a.isUnattended = true := by
    refine List.forall_mem_append.mpr ⟨?_, hschedule⟩
    simp [launch, Action.isUnattended]
  rw [hrun] at he hrest
  obtain ⟨x', hx', hawaited⟩ := he
  obtain ⟨honly, hreturns⟩ := outcomes_echo hdoes hbuild hx hreserved haborted hlate hx'
  obtain ⟨e, rest, houtcomes⟩ := List.exists_cons_of_ne_nil
    (hreturns hrest (attaching_eq_none_of_isSettled hawaited.isSettled).1)
  have he := hawaited.outcomes_eq
  rw [houtcomes, List.head?_cons] at he
  rw [hwait, ← he, honly e (houtcomes ▸ List.mem_cons_self)]
  rfl

end

/-! ## Waits -/

/-- The scheduler does nothing that the probe does not let happen. -/
theorem via_does_of_scheduled {w w' : System String} (h : Scheduled w w') : Via (Does o s) w w' :=
  h.mono fun _ ha => .unattended ha

/-- To block is to look for the outcome, perhaps until the time is up, while the scheduler acts. -/
theorem via_waitOut (o : Options) (s : ScopeId) (r : ReservationId) (w : System String) :
    Via (Does o s) w (w.waitOut r id).1 := by
  have hquiesce (deadline : Option Nat) :
      Via (Does o s) w ((w.quiesce deadline).quiesce deadline) :=
    via_does_of_scheduled ((scheduled_quiesce deadline w).trans (scheduled_quiesce deadline _))
  have hpass {v : System String} (h : Via (Does o s) w v) (t : Nat) :
      Via (Does o s) w (v.act (.pass t)) :=
    h.trans (via_does_of_scheduled (Scheduled.act rfl v))
  have hexpire {v : System String} (h : Via (Does o s) w v) :
      Via (Does o s) w (v.act (.expire r)) :=
    h.trans (.act (Does.expire r) v)
  unfold waitOut
  simp only [id]
  split
  · exact (hquiesce _).trans (.act (Does.fetch r) _)
  · exact hquiesce _
  · split
    · exact hexpire (hpass (hquiesce _) _)
    · exact hexpire (hpass (hquiesce _) _)
    · exact hexpire (hpass (hquiesce _) _)
    · exact hpass (hquiesce _) _

/-- To poll until there is an answer is to poll twice at most, while the scheduler
acts in between. -/
theorem via_pollOut (o : Options) (s : ScopeId) (r : ReservationId) (w : System String) :
    Via (Does o s) w (w.pollOut r id).1 := by
  have hpoll (v : System String) : Via (Does o s) v (v.act (.poll r .thread)) :=
    .act (.poll r .thread) v
  unfold pollOut
  split
  · exact hpoll w
  · refine ((hpoll w).trans (via_does_of_scheduled ?_)).trans (hpoll _)
    exact (scheduled_quiesce none _).trans (scheduled_quiesce none _)

/-- In whatever way the probe waits, it goes on as before. -/
theorem via_wait (o : Options) (s : ScopeId) (r : ReservationId) (w : System String)
    (shape : Shape) : Via (Does o s) w (shape.wait r w).1 := by
  have hwait := via_waitOut o s r w
  cases shape with
  | stream => exact (via_pollOut o s r w).trans (.act (Does.drop r) _)
  | block | spawn | mono | maybe =>
    simp only [Shape.wait]
    rcases hresult : w.waitOut r id with ⟨w', d | _ | _⟩ <;> rwa [hresult] at hwait

/-! ## Trials -/

/-- What comes of consuming the computation in this way: the value, or a mono has timed out. -/
inductive Comes (o : Options) : Shape → Except Failure (Option String) → Prop
  /-- The value comes. -/
  | value (shape : Shape) : Comes o shape (.ok (some o.value))
  /-- The time is up. -/
  | timedOut : Comes o .mono (.error (.timedOut o.timeout))

section

variable (hdoes : ∀ a ∈ actions, Does o s a) (hbuild : ({} : System String).build c = .built s w₀)

include hdoes hbuild

/-- What is extracted from a reservation that the probe has made. -/
theorem exists_extract (hx : (run {} (.build c :: actions)).reservations[r]? = some x)
    (hreserved : Reserved r x) (haborted : x.aborted = false) (shape : Shape) :
    ∃ result, extract o r (run {} (.build c :: actions)) shape = some result ∧
      Comes o shape result := by
  have hwait := wait_block hdoes hbuild hx hreserved haborted
  have hextraction := extraction_run hx hreserved o
  cases shape with
  | block => exact ⟨_, hextraction.extract_eq _ .block hwait (.inl rfl), .value _⟩
  | spawn => exact ⟨_, hextraction.extract_eq _ .spawn hwait (.inr (.inl rfl)), .value _⟩
  | stream => exact ⟨_, hextraction.extract_eq _ .stream hwait (.inr (.inr rfl)), .value _⟩
  | maybe => exact ⟨_, hextraction.extract_maybe _ hwait, .value _⟩
  | mono =>
    rcases hextraction.extract_mono _ hwait with hvalue | htimedOut
    · exact ⟨_, hvalue, .value _⟩
    · exact ⟨_, htimedOut, .timedOut⟩

/-- Every trial comes to an end, and the probe goes on as before. -/
theorem exists_trial (shape : Shape) : ∃ t later,
    shape.attempt o s (run {} (.build c :: actions)) =
      (run {} (.build c :: (actions ++ later)), some t) ∧
      (∀ a ∈ later, Does o s a) ∧ t.shape = shape ∧ Comes o shape t.outcome := by
  obtain ⟨x, hx, hreserved, haborted⟩ := exists_reserved hdoes hbuild shape.name
  have hdoes' : ∀ a ∈ actions ++ [.reserve s (some echoName) shape.name (echo o)], Does o s a :=
    List.forall_mem_append.mpr ⟨hdoes, List.forall_mem_singleton.mpr (.reserve _)⟩
  obtain ⟨result, hresult, hcomes⟩ := exists_extract hdoes' hbuild hx hreserved haborted shape
  rw [← List.cons_append, run_concat, ← outcome_attempt] at hresult
  obtain ⟨t, ht, rfl⟩ := Option.map_eq_some_iff.mp hresult
  have hshape : t.shape = shape := by
    obtain ⟨d, -, rfl⟩ := Option.map_eq_some_iff.mp ht
    rfl
  -- The probe reserves, consumes the reservation, and waits.
  have hvia : Via (Does o s) (run {} (.build c :: actions))
      (shape.attempt o s (run {} (.build c :: actions))).1 := by
    refine (Via.act (Does.reserve shape.name) _).trans (.trans ?_ (via_wait o s _ _ shape))
    exact ⟨_, does_of_mem_actions o s _ shape, rfl⟩
  obtain ⟨later, hlater, hw⟩ := hvia.exists_run
  exact ⟨t, later, Prod.ext hw ht, hlater, hshape, hcomes⟩

/-- There is one trial for each shape, in order, and each comes to the value or is a mono
that has timed out. -/
theorem exists_trials (shapes : List Shape) :
    ∃ ts, trials o s (run {} (.build c :: actions)) shapes = some ts ∧
      ts.map Trial.shape = shapes ∧ ∀ t ∈ ts, Comes o t.shape t.outcome := by
  induction shapes generalizing actions with
  | nil => exact ⟨[], rfl, rfl, List.forall_mem_nil _⟩
  | cons shape shapes ih =>
    obtain ⟨t, later, hattempt, hlater, hshape, hcomes⟩ := exists_trial hdoes hbuild shape
    obtain ⟨ts, hts, hshapes, hall⟩ := ih (List.forall_mem_append.mpr ⟨hdoes, hlater⟩)
    refine ⟨t :: ts, ?_, ?_, List.forall_mem_cons.mpr ⟨hshape ▸ hcomes, hall⟩⟩
    · rw [trials, hattempt]
      simp only [hts]
      rfl
    · rw [List.map_cons, hshape, hshapes]

end

end Deferral.Probe
