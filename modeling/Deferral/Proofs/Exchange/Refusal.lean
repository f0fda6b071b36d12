import Deferral.Proofs.Duration
import Deferral.Proofs.Exchange.Delivery

/-!
# Bounded waits that are refused

A bounded wait looks into the cell, and again whenever it was roused. It is refused if it was roused
by its deadline and still finds nothing, and it holds the lock while it looks. So an outcome that
was published before the last look is handed out, however late it came, and a wait that was refused
has changed nothing but where the consumer is.

Main statements:
* `moves_step`: what a step means for the consumer.
* `forget_run_of_refused`: a run goes on as if the waits that were refused had not been.
* `remains_run`: a wait whose deadline is beyond the latest time ends with an answer only.
* `forbearing_run`: no wait that is refused leaves a trace, and none loses the outcome.
-/

namespace Deferral

/-- Whether the consumer is in a wait that has no deadline. -/
def Attendance.isUnbounded : Attendance → Bool
  | .parked none | .roused none _ => true
  | _ => false

namespace Exchange

variable {W V : Type}

/-- Whether a step belongs to a wait, or rouses the consumer from one. -/
def Step.isWaiting : Step W V → Bool
  | .waitFor _ | .rouse | .lapse | .lookAgain => true
  | _ => false

/-- Whether a step asks for the outcome, and does not take no for an answer at a deadline. -/
def Step.isFinal : Step W V → Bool
  | .poll _ | .wait | .onComplete _ => true
  | _ => false

/-- The steps that belong to no bounded wait. -/
def others (steps : List (Step W V)) : List (Step W V) :=
  steps.filter fun a => !a.isWaiting

/-- The exchange without the record of what the consumer was told, and of what it was refused. -/
def forget (x : Exchange W V) : Exchange W V :=
  { x with answers := [], refusals := 0 }

/-- The exchange as if the consumer was in no call. -/
def unattended (x : Exchange W V) : Exchange W V :=
  { x.forget with attendance := .free }

variable {x y : Exchange W V} {a : Step W V} {steps further : List (Step W V)} {s : Whereabouts V}

@[simp]
theorem run_nil [Wakes W] (x : Exchange W V) : x.run [] = x := rfl

@[simp]
theorem run_cons [Wakes W] (x : Exchange W V) (a : Step W V) (steps : List (Step W V)) :
    x.run (a :: steps) = (x.step a).run steps := rfl

theorem run_append [Wakes W] (x : Exchange W V) (steps further : List (Step W V)) :
    x.run (steps ++ further) = (x.run steps).run further :=
  List.foldl_append

/-! ## What a step means for the consumer -/

/-- What the step `a` means for the consumer. -/
inductive Moves (x : Exchange W V) (a : Step W V) : Exchange W V → Prop
  /-- It stays where it is, or is roused before its deadline. -/
  | stays {y : Exchange W V} (hhanded : y.handed = x.handed ∨ ∃ o, x.publishing.carried? = some o ∧
        y.handed = x.handed ++ [(.callback, o)]) (hrefusals : y.refusals = x.refusals)
      (hclock : x.clock ≤ y.clock) (hattendance : y.attendance = x.attendance ∨
        ∃ deadline, x.attendance = .parked deadline ∧ y.attendance = .roused deadline false) :
      Moves x a y
  /-- It polls, or gives the cell up for a callback. -/
  | asks {y : Exchange W V} (ha : a.isRequest = true) (hfree : x.attendance = .free)
      (hhanded : x.handed <+: y.handed) (hrefusals : y.refusals = x.refusals)
      (hattendance : y.attendance = .free ∨ y.attendance = .left) : Moves x a y
  /-- It finds nothing and parks. -/
  | parks (deadline : Option Nat)
      (hlooks : a.isRequest = true ∧ x.attendance = .free ∨
        a = .lookAgain ∧ x.attendance = .roused deadline false) : Moves x a (x.park deadline)
  /-- It is roused by its deadline. -/
  | lapses (t : Nat) (hparked : x.attendance = .parked (some t)) (hlate : t ≤ x.clock) :
      Moves x a { x with attendance := .roused (some t) true }
  /-- A wait is answered. -/
  | answered (cell : Cell W (Outcome V)) (o : Outcome V)
      (hlooks : a.isRequest = true ∧ x.attendance = .free ∨
        a = .lookAgain ∧ ∃ deadline late, x.attendance = .roused deadline late) :
      Moves x a { x with cell, attendance := .free, handed := x.handed ++ [(.wait, o)] }
  /-- A wait is refused, since it was roused by its deadline and finds nothing. -/
  | refused (deadline : Option Nat) (ha : a = .lookAgain)
      (hlate : x.attendance = .roused deadline true) (hlocked : x.Unlocked)
      (hslot : x.cell.slot = .pending) : Moves x a x.refuse

namespace Moves

/-- Nothing happens to the consumer. -/
theorem idle (hhanded : y.handed = x.handed) (hrefusals : y.refusals = x.refusals)
    (hclock : x.clock ≤ y.clock) (hattendance : y.attendance = x.attendance) : Moves x a y :=
  .stays (.inl hhanded) hrefusals hclock (.inl hattendance)

theorem of_eq (h : y = x) : Moves x a y := by
  subst h
  exact idle rfl rfl (Nat.le_refl _) rfl

theorem rouse (x : Exchange W V) : Moves x a x.rouse := by
  unfold Exchange.rouse
  split
  next deadline hparked =>
    exact .stays (.inl rfl) rfl (Nat.le_refl _) (.inr ⟨deadline, hparked, rfl⟩)
  next => exact of_eq rfl

theorem surrender (x : Exchange W V) (o : Outcome V) : Moves x a (x.surrender o) := by
  unfold Exchange.surrender
  split
  · split
    · exact idle rfl rfl (Nat.le_refl _) rfl
    · exact of_eq rfl
  · exact of_eq rfl

theorem unlock (x : Exchange W V) : Moves x a x.unlock := by
  unfold Exchange.unlock
  split <;> exact idle rfl rfl (Nat.le_refl _) rfl

/-- The callback that the consumer has left is handed the outcome. -/
theorem call (x : Exchange W V) (panics : Bool) : Moves x a (x.call panics) := by
  unfold Exchange.call
  split
  next callback o hp =>
    exact .stays (.inr ⟨o, by rw [hp]; rfl, rfl⟩) rfl (Nat.le_refl _) (.inl rfl)
  next => exact of_eq rfl

theorem notify (x : Exchange W V) : Moves x a x.notify := by
  unfold Exchange.notify Exchange.rouse
  split
  · split
    next deadline hparked =>
      exact .stays (.inl rfl) rfl (Nat.le_refl _) (.inr ⟨deadline, hparked, rfl⟩)
    next => exact idle rfl rfl (Nat.le_refl _) rfl
  · exact of_eq rfl

theorem wake [Wakes W] (x : Exchange W V) : Moves x a x.wake := by
  unfold Exchange.wake
  split <;> exact idle rfl rfl (Nat.le_refl _) rfl

/-- A consumer that asks for nothing while another call of its is under way is left as it is. -/
theorem whenFree {f : Exchange W V → Exchange W V} (hf : x.attendance = .free → Moves x a (f x)) :
    Moves x a (x.whenFree f) := by
  rcases x.whenFree_cases f with hwhen | ⟨hfree, -, hwhen⟩ <;> rw [hwhen]
  · exact of_eq rfl
  · exact hf hfree

theorem poll [Wakes W] (ha : a.isRequest = true) (w : W) (hfree : x.attendance = .free) :
    Moves x a (x.poll w) := by
  unfold Exchange.poll
  split
  · exact .asks ha hfree (List.prefix_append ..) rfl (.inl hfree)
  · exact .asks ha hfree List.prefix_rfl rfl (.inl hfree)

theorem onComplete (ha : a.isRequest = true) (callback : Callback) (hfree : x.attendance = .free) :
    Moves x a (x.onComplete callback) := by
  unfold Exchange.onComplete
  split
  · exact .asks ha hfree (List.prefix_append ..) rfl (.inr rfl)
  · exact .asks ha hfree List.prefix_rfl rfl (.inr rfl)

theorem lapse (x : Exchange W V) : Moves x a x.lapse := by
  unfold Exchange.lapse
  split
  next t hparked =>
    split
    · exact .lapses t hparked ‹_›
    · exact of_eq rfl
  next => exact of_eq rfl

/-- A look by which a wait begins. -/
theorem look (ha : a.isRequest = true) (deadline : Option Nat) :
    Moves x a (x.whenFree (Exchange.look (park deadline))) := by
  refine whenFree fun hfree => ?_
  rcases x.look_cases (park deadline) with ⟨-, hlook⟩ | ⟨cell, o, hlook⟩ <;> rw [hlook]
  · exact .parks deadline (.inl ⟨ha, hfree⟩)
  · exact .answered cell o (.inl ⟨ha, hfree⟩)

/-- A look of a wait that was roused. -/
theorem lookAgain (x : Exchange W V) : Moves x .lookAgain x.lookAgain := by
  rcases x.lookAgain_cases with hagain | ⟨deadline, late, hroused, hlocked, hagain⟩ <;> rw [hagain]
  · exact of_eq rfl
  · rcases x.look_cases (if late then refuse else park deadline) with
      ⟨hslot, hlook⟩ | ⟨cell, o, hlook⟩ <;> rw [hlook]
    · cases late with
      | true => exact .refused deadline rfl hroused hlocked hslot
      | false => exact .parks deadline (.inr ⟨rfl, hroused⟩)
    · exact .answered cell o (.inr ⟨rfl, deadline, late, hroused⟩)

end Moves

/-- A step means one of these things for the consumer. -/
theorem moves_step [Wakes W] (x : Exchange W V) (a : Step W V) : Moves x a (x.step a) := by
  cases a with
  | complete o => exact .surrender x o
  | drop => exact .surrender x _
  | unlock => exact .unlock x
  | call panics => exact .call x panics
  | notify => exact .notify x
  | wake => exact .wake x
  | ask => exact .whenFree fun _ => .idle rfl rfl (Nat.le_refl _) rfl
  | poll w => exact .whenFree (.poll rfl w)
  | wait => exact .look rfl none
  | waitFor limit => exact .look rfl (limit.deadline? x.clock)
  | onComplete callback => exact .whenFree (.onComplete rfl callback)
  | rouse => exact .rouse x
  | lapse => exact .lapse x
  | lookAgain => exact .lookAgain x
  | pass t => exact .idle rfl rfl (Nat.le_add_right ..) rfl

/-- What was handed out stays so. -/
theorem Moves.prefix_handed (h : Moves x a y) : x.handed <+: y.handed := by
  cases h with
  | stays hhanded =>
    rcases hhanded with hhanded | ⟨o, -, hhanded⟩
    · exact hhanded ▸ List.prefix_rfl
    · exact hhanded ▸ List.prefix_append ..
  | asks _ _ hhanded => exact hhanded
  | answered => exact List.prefix_append ..
  | parks | lapses | refused => exact List.prefix_rfl

theorem handed_prefix_run [Wakes W] (x : Exchange W V) (steps : List (Step W V)) :
    x.handed <+: (x.run steps).handed := by
  induction steps generalizing x with
  | nil => exact List.prefix_rfl
  | cons a steps ih => exact (moves_step x a).prefix_handed.trans (ih (x.step a))

/-! ## What a step does not look at -/

theorem unattended_of_free (h : x.attendance = .free) : x.unattended = x.forget := by
  cases x
  simp_all [unattended, forget]

theorem forget_look {missed : Exchange W V → Exchange W V}
    (h : (missed x).forget = (missed x.forget).forget) :
    (x.look missed).forget = (x.forget.look missed).forget := by
  unfold look
  rw [show x.forget.cell = x.cell from rfl]
  split
  · rfl
  · exact h

theorem forget_whenFree {f : Exchange W V → Exchange W V}
    (h : (f x).forget = (f x.forget).forget) :
    (x.whenFree f).forget = (x.forget.whenFree f).forget := by
  unfold whenFree
  rw [show x.forget.attendance = x.attendance from rfl,
    show x.forget.isLocked = x.isLocked from rfl]
  split
  · split
    · rfl
    · exact h
  · rfl

/-- No step looks at what the consumer was told and refused. -/
theorem forget_step [Wakes W] (x : Exchange W V) (a : Step W V) :
    (x.step a).forget = (x.forget.step a).forget := by
  obtain ⟨cell, owing, publishing, unwinding, attendance, clock, published, handed, answers,
    refusals, waiting, woken⟩ := x
  -- The refusals are only ever added to; what a step does is told by the other fields.
  cases a with
  | complete o => cases publishing <;> cases owing <;> rfl
  | drop => cases publishing <;> cases owing <;> rfl
  | unlock =>
    rcases publishing with _ | notice | _ | _ | _
    · rfl
    · cases notice <;> rfl
    all_goals rfl
  | call panics => cases publishing <;> rfl
  | notify => cases publishing <;> cases attendance <;> rfl
  | wake => cases publishing <;> rfl
  | ask => exact forget_whenFree rfl
  | poll w =>
    apply forget_whenFree
    unfold poll forget
    dsimp only
    split <;> rfl
  | wait => exact forget_whenFree (forget_look rfl)
  | waitFor limit => exact forget_whenFree (forget_look rfl)
  | onComplete callback =>
    apply forget_whenFree
    unfold onComplete forget
    dsimp only
    split <;> rfl
  | rouse => cases attendance <;> rfl
  | lapse =>
    show (lapse _).forget = (lapse _).forget
    unfold lapse forget
    dsimp only
    split
    · split <;> rfl
    · rfl
  | lookAgain =>
    rcases attendance with _ | _ | ⟨deadline, late⟩ | _
    · rfl
    · rfl
    · cases publishing <;> cases late <;> first | rfl | exact forget_look rfl
    · rfl
  | pass t => rfl

/-- What is not looked at makes no difference in a run. -/
theorem forget_run [Wakes W] (h : x.forget = y.forget) (steps : List (Step W V)) :
    (x.run steps).forget = (y.run steps).forget := by
  induction steps generalizing x y with
  | nil => exact h
  | cons a steps ih =>
    apply ih
    rw [forget_step x, forget_step y, h]

/-- A step of a bounded wait that hands nothing out changes only where the consumer is. -/
theorem unattended_step_of_isWaiting [Wakes W] (ha : a.isWaiting = true)
    (hhanded : (x.step a).handed = x.handed) : (x.step a).unattended = x.unattended := by
  -- Such a step parks the consumer, rouses it, or has it look in vain.
  cases a with
  | waitFor limit =>
    rw [step] at hhanded ⊢
    rcases x.whenFree_cases (look (park (limit.deadline? x.clock))) with hwhen | ⟨-, -, hwhen⟩ <;>
      rw [hwhen] at hhanded ⊢
    rw [look_of_handed_eq hhanded]
    rfl
  | rouse =>
    show x.rouse.unattended = _
    unfold rouse
    split <;> rfl
  | lapse =>
    show x.lapse.unattended = _
    unfold lapse
    split
    · split <;> rfl
    · rfl
  | lookAgain =>
    rw [step] at hhanded ⊢
    rcases x.lookAgain_cases with hlook | ⟨deadline, late, -, -, hlook⟩ <;>
      rw [hlook] at hhanded ⊢
    rw [look_of_handed_eq hhanded]
    cases late <;> rfl
  | _ => cases ha

/-- No other step looks at where the consumer is, if it does not ask for the outcome. -/
theorem unattended_step [Wakes W] (x : Exchange W V) (ha : a.isWaiting = false)
    (hfinal : a.isFinal = false) : (x.step a).unattended = (x.unattended.step a).unattended := by
  obtain ⟨cell, owing, publishing, unwinding, attendance, clock, published, handed, answers,
    refusals, waiting, woken⟩ := x
  cases a with
  | complete o => cases publishing <;> cases owing <;> rfl
  | drop => cases publishing <;> cases owing <;> rfl
  | unlock =>
    rcases publishing with _ | notice | _ | _ | _
    · rfl
    · cases notice <;> rfl
    all_goals rfl
  | call panics => cases publishing <;> rfl
  | notify => cases publishing <;> cases attendance <;> rfl
  | wake => cases publishing <;> rfl
  | ask => cases attendance <;> cases publishing <;> rfl
  | pass t => rfl
  | waitFor | rouse | lapse | lookAgain => cases ha
  | poll | wait | onComplete => cases hfinal

/-- Without the bounded waits that handed nothing out, the run is the same but for
where the consumer is. -/
theorem unattended_run [Wakes W] (h : x.unattended = y.unattended)
    (hfinal : ∀ a ∈ steps, a.isFinal = false) (hhanded : (x.run steps).handed = x.handed) :
    (x.run steps).unattended = (y.run (others steps)).unattended := by
  induction steps generalizing x y with
  | nil => exact h
  | cons a steps ih =>
    -- Nothing is handed out by the first step, nor by those after it.
    have hfirst : (x.step a).handed = x.handed := by
      refine (List.IsPrefix.eq_of_length_le (moves_step x a).prefix_handed ?_).symm
      rw [← hhanded]
      exact (handed_prefix_run (x.step a) steps).length_le
    have hlater : ((x.step a).run steps).handed = (x.step a).handed := hhanded.trans hfirst.symm
    have hfinal' : ∀ b ∈ steps, b.isFinal = false := fun b hb =>
      hfinal b (List.mem_cons_of_mem _ hb)
    cases ha : a.isWaiting with
    | true =>
      have hothers : others (a :: steps) = others steps := by simp [others, ha]
      rw [run_cons, hothers]
      exact ih ((unattended_step_of_isWaiting ha hfirst).trans h) hfinal' hlater
    | false =>
      have hothers : others (a :: steps) = a :: others steps := by simp [others, ha]
      rw [run_cons, hothers, run_cons]
      refine ih ?_ hfinal' hlater
      have hnot := hfinal a List.mem_cons_self
      rw [unattended_step x ha hnot, unattended_step y ha hnot, h]

/-- A request is made in a bounded wait or in another way. -/
theorem Step.isWaiting_or_isFinal (ha : a.isRequest = true) :
    a.isWaiting = true ∨ a.isFinal = true := by
  cases a <;> simp_all [isRequest, isWaiting, isFinal]

/-- A consumer that makes no request stays in no call. -/
theorem Moves.attendance_eq (h : Moves x a y) (hfree : x.attendance = .free)
    (ha : a.isRequest = false) : y.attendance = .free := by
  cases h with
  | stays _ _ _ hattendance =>
    rcases hattendance with hsame | ⟨deadline, hparked, -⟩
    · exact hsame.trans hfree
    · cases hfree.symm.trans hparked
  | asks ha' => cases ha.symm.trans ha'
  | answered => rfl
  | refused => rfl
  | parks deadline hlooks =>
    rcases hlooks with ⟨ha', -⟩ | ⟨-, hroused⟩
    · cases ha.symm.trans ha'
    · cases hfree.symm.trans hroused
  | lapses t hparked => cases hfree.symm.trans hparked

theorem attendance_run_others [Wakes W] (hfree : x.attendance = .free)
    (hfinal : ∀ a ∈ steps, a.isFinal = false) : (x.run (others steps)).attendance = .free := by
  induction steps generalizing x with
  | nil => exact hfree
  | cons a steps ih =>
    have hfinal' : ∀ b ∈ steps, b.isFinal = false := fun b hb =>
      hfinal b (List.mem_cons_of_mem _ hb)
    cases ha : a.isWaiting with
    | true =>
      have hothers : others (a :: steps) = others steps := by simp [others, ha]
      rw [hothers]
      exact ih hfree hfinal'
    | false =>
      have hothers : others (a :: steps) = a :: others steps := by simp [others, ha]
      -- A request is a bounded wait or a final one, and this step is neither.
      have hrequest : a.isRequest = false := by
        by_contra hne
        rcases Step.isWaiting_or_isFinal (by simpa using hne) with h | h
        · cases ha.symm.trans h
        · cases (hfinal a List.mem_cons_self).symm.trans h
      rw [hothers, run_cons]
      exact ih ((moves_step x a).attendance_eq hfree hrequest) hfinal'

/-- **A wait that was refused leaves no trace.** The run goes on as if the bounded waits that handed
nothing out had not been. -/
theorem forget_run_of_refused [Wakes W] (hfree : x.attendance = .free)
    (hfinal : ∀ a ∈ steps, a.isFinal = false) (hhanded : (x.run steps).handed = x.handed)
    (hfree' : (x.run steps).attendance = .free) (further : List (Step W V)) :
    (x.run (steps ++ further)).forget = (x.run (others steps ++ further)).forget := by
  rw [run_append, run_append]
  apply forget_run
  have hsame := unattended_run (x := x) (y := x) rfl hfinal hhanded
  rwa [unattended_of_free hfree', unattended_of_free (attendance_run_others hfree hfinal)] at hsame

/-! ## When a wait is refused -/

/-- A consumer that was roused by its deadline has one, and the deadline has come. -/
def Punctual (x : Exchange W V) : Prop :=
  ∀ deadline, x.attendance = .roused deadline true → ∃ t, deadline = some t ∧ t ≤ x.clock

/-- No step rouses a consumer by its deadline before that has come. -/
theorem Moves.punctual (h : Moves x a y) (hx : x.Punctual) : y.Punctual := by
  intro deadline hlate
  -- Only a wait that lapses rouses the consumer by its deadline.
  cases h with
  | stays _ _ hclock hattendance =>
    rcases hattendance with hsame | ⟨_, -, hroused⟩
    · obtain ⟨t, rfl, hcome⟩ := hx deadline (hsame.symm.trans hlate)
      exact ⟨t, rfl, Nat.le_trans hcome hclock⟩
    · cases hroused.symm.trans hlate
  | asks _ _ _ _ hattendance =>
    rcases hattendance with hfree | hleft
    · cases hfree.symm.trans hlate
    · cases hleft.symm.trans hlate
  | parks => cases hlate
  | lapses t _ hcome =>
    obtain rfl : some t = deadline := (Attendance.roused.inj hlate).1
    exact ⟨t, rfl, hcome⟩
  | answered => cases hlate
  | refused => cases hlate

theorem punctual_run [Wakes W] (steps : List (Step W V)) :
    (run {} steps : Exchange W V).Punctual := by
  induction steps using List.reverseRecOn with
  | nil => exact nofun
  | append_singleton steps a ih =>
    rw [run_append]
    exact (moves_step _ a).punctual ih

/-- A wait is refused only when it looks for the last time, into an empty cell. -/
theorem Moves.refusals (h : Moves x a y) : y.refusals = x.refusals ∨
    a = .lookAgain ∧ (∃ deadline, x.attendance = .roused deadline true) ∧ x.Unlocked ∧
      x.cell.slot = .pending ∧ y = x.refuse := by
  cases h with
  | stays _ hrefusals => exact .inl hrefusals
  | asks _ _ _ hrefusals => exact .inl hrefusals
  | parks | lapses | answered => exact .inl rfl
  | refused deadline ha hlate hlocked hslot =>
    exact .inr ⟨ha, ⟨deadline, hlate⟩, hlocked, hslot, rfl⟩

/-- Once the outcome is published, no wait is refused. -/
theorem refusals_run_of_isDone [Wakes W] {steps further : List (Step W V)}
    (hdone : (run {} steps : Exchange W V).cell.isDone = true) :
    ((run {} steps : Exchange W V).run further).refusals =
      (run {} steps : Exchange W V).refusals := by
  induction further generalizing steps with
  | nil => rfl
  | cons a further ih =>
    obtain ⟨s, h, -⟩ := exists_at_run steps
    obtain ⟨s', h', hs'⟩ := h.step a
    -- The cell was not empty, so the step refuses no wait; and it will not be empty.
    have hpublished : s.outcome?.isSome = true := h.isDone ▸ hdone
    have hlast : (run {} steps : Exchange W V).step a = run {} (steps ++ [a]) := by
      rw [run_append, run_cons, run_nil]
    rw [run_cons, hlast, ih]
    · rw [← hlast]
      refine (moves_step _ a).refusals.resolve_right ?_
      rintro ⟨-, -, -, hslot, -⟩
      rw [Cell.isDone, hslot] at hdone
      cases hdone
    · rw [← hlast, h'.isDone, hs', Option.isSome_or, hpublished]
      rfl

/-- A wait without a deadline is answered in a step, or goes on after it. -/
theorem Moves.remains (h : Moves x a y) (hat : x.At s) (hx : x.Punctual)
    (hunbounded : x.attendance.isUnbounded = true) :
    y.refusals = x.refusals ∧
      (y.attendance.isUnbounded = true ∧ y.handed = x.handed ∨
        ∃ o, y.handed = x.handed ++ [(.wait, o)]) := by
  have hleft : x.attendance ≠ .left := by
    intro hleft
    rw [hleft] at hunbounded
    cases hunbounded
  have hfree : x.attendance ≠ .free := by
    intro hfree
    rw [hfree] at hunbounded
    cases hunbounded
  cases h with
  | stays hhanded hrefusals _ hattendance =>
    refine ⟨hrefusals, .inl ⟨?_, ?_⟩⟩
    · rcases hattendance with hsame | ⟨deadline, hparked, hroused⟩
      · rw [hsame, hunbounded]
      · rw [hparked] at hunbounded
        rw [hroused]
        cases deadline with
        | none => rfl
        | some t => cases hunbounded
    · -- The publisher carries an outcome only to the callback of a consumer that has left.
      refine hhanded.resolve_right ?_
      rintro ⟨o, hcarried, -⟩
      rw [hat.carried, hat.carried?_of_not_left hleft] at hcarried
      cases hcarried
  | asks _ hfree' => exact absurd hfree' hfree
  | parks deadline hlooks =>
    obtain ⟨-, hroused⟩ := hlooks.resolve_left fun hlooks => hfree hlooks.2
    rw [hroused] at hunbounded
    refine ⟨rfl, .inl ⟨?_, rfl⟩⟩
    cases deadline with
    | none => rfl
    | some t => cases hunbounded
  | lapses t hparked =>
    rw [hparked] at hunbounded
    cases hunbounded
  | answered cell o => exact ⟨rfl, .inr ⟨o, rfl⟩⟩
  | refused deadline _ hlate =>
    -- Whoever was roused by a deadline has one.
    obtain ⟨t, rfl, -⟩ := hx deadline hlate
    rw [hlate] at hunbounded
    cases hunbounded

/-- A wait without a deadline goes on until it is answered. -/
theorem remains_run [Wakes W] {steps : List (Step W V)}
    (hunbounded : (run {} steps : Exchange W V).attendance.isUnbounded = true)
    (further : List (Step W V)) :
    ((run {} steps : Exchange W V).run further).attendance.isUnbounded = true ∧
        ((run {} steps).run further).refusals = (run {} steps).refusals ∧
        ((run {} steps).run further).handed = (run {} steps).handed ∨
      ∃ before a after o, further = before ++ a :: after ∧
        ((run {} steps).run (before ++ [a])).refusals = (run {} steps).refusals ∧
        ((run {} steps).run (before ++ [a])).handed = (run {} steps).handed ++ [(.wait, o)] := by
  induction further using List.reverseRecOn with
  | nil => exact .inl ⟨hunbounded, rfl, rfl⟩
  | append_singleton further a ih =>
    rcases ih with ⟨hwaits, hrefusals, hhanded⟩ | ⟨before, b, after, o, rfl, hanswered⟩
    · rw [← run_append] at hwaits hrefusals hhanded
      obtain ⟨s, hat, -⟩ := exists_at_run (steps ++ further)
      obtain ⟨hrefusals', hremains⟩ :=
        (moves_step _ a).remains hat (punctual_run (steps ++ further)) hwaits
      have hlast : (run {} steps : Exchange W V).run (further ++ [a]) =
          (run {} (steps ++ further)).step a := by
        rw [run_append, run_append, run_cons, run_nil]
      -- The last step leaves the wait as it is, or answers it.
      rcases hremains with ⟨hwaits', hhanded'⟩ | ⟨o, hhanded'⟩
      · rw [hlast]
        exact .inl ⟨hwaits', hrefusals'.trans hrefusals, hhanded'.trans hhanded⟩
      · refine .inr ⟨further, a, [], o, rfl, ?_, ?_⟩ <;> rw [hlast]
        · exact hrefusals'.trans hrefusals
        · rw [hhanded', hhanded]
    · exact .inr ⟨before, b, after ++ [a], o, by simp, hanswered⟩

/-! ## What waits are answered with -/

/-- An outcome that was published and not handed out lies in the cell. -/
theorem At.slot_eq_ready (h : x.At s) {o : Outcome V} (hpublished : x.published = [o])
    (hhanded : x.handed = []) (hleft : x.attendance ≠ .left) : x.cell.slot = .ready o := by
  have hs : s.outcome?.toList = [o] := h.published.symm.trans hpublished
  have hout : s.handedOut = [] := by rw [← h.handed, hhanded, List.map_nil]
  cases s with
  | owed => cases hs
  | carried => cases h.carried?_of_not_left hleft
  | stored o' =>
    obtain rfl : o' = o := List.singleton_inj.mp hs
    exact h.slot
  | handed => cases hout

/-- A look finds what lies in the cell. -/
theorem handed_look_of_ready {o : Outcome V} (hslot : x.cell.slot = .ready o)
    (missed : Exchange W V → Exchange W V) :
    (x.look missed).handed = x.handed ++ [(.wait, o)] := by
  simp [look, Cell.take?, hslot]

/-- The bounded waits on an exchange lose no outcome, and leave no trace when they are refused. -/
structure Forbearing [Wakes W] (x : Exchange W V) : Prop where
  /-- A wait is refused only by a last look under the lock, after its deadline, that finds nothing
  published; and nothing is changed by it but where the consumer is. -/
  refused : ∀ a, (x.step a).refusals ≠ x.refusals →
    a = .lookAgain ∧ (∃ t, x.attendance = .roused (some t) true ∧ t ≤ x.clock) ∧
      x.Unlocked ∧ x.cell.slot = .pending ∧ x.published = [] ∧ x.step a = x.refuse
  /-- Whatever happens while the consumer makes bounded waits that are refused, and whatever is done
  after them, happens as well without them. -/
  invisible : x.attendance = .free → ∀ calls further : List (Step W V),
    (∀ a ∈ calls, a.isFinal = false) → (x.run calls).handed = x.handed →
      (x.run calls).attendance = .free →
        (x.run (calls ++ further)).forget = (x.run (others calls ++ further)).forget
  /-- An outcome that was published before a bounded wait begins is handed out at once. -/
  prompt : ∀ o limit, x.published = [o] → x.handed = [] → x.attendance = .free →
    x.Unlocked → (x.step (.waitFor limit)).handed = [(.wait, o)]
  /-- An outcome that was published before a look is handed out by it, also after the deadline. -/
  answered : ∀ o deadline late, x.published = [o] → x.handed = [] →
    x.attendance = .roused deadline late → x.Unlocked →
      (x.step .lookAgain).handed = [(.wait, o)]
  /-- After the consumer was told that the outcome is there, no wait is refused. -/
  assured : true ∈ x.answers → ∀ further : List (Step W V), (x.run further).refusals = x.refusals
  /-- With a limit that leads beyond the seconds of 63 bits, the consumer waits as without any. -/
  overflow : ∀ limit : Duration, 2 ^ 63 * 10 ^ 9 ≤ x.clock + limit.nanoseconds →
    x.step (.waitFor limit) = x.step .wait
  /-- Such a wait goes on until it is answered. -/
  remains : x.attendance.isUnbounded = true → ∀ further : List (Step W V),
    (x.run further).attendance.isUnbounded = true ∧ (x.run further).refusals = x.refusals ∧
        (x.run further).handed = x.handed ∨
      ∃ before a after o, further = before ++ a :: after ∧
        (x.run (before ++ [a])).refusals = x.refusals ∧
        (x.run (before ++ [a])).handed = x.handed ++ [(.wait, o)]

/-- In every run, no bounded wait loses the outcome or leaves a trace when it is refused. -/
theorem forbearing_run [Wakes W] (steps : List (Step W V)) :
    (run {} steps : Exchange W V).Forbearing := by
  obtain ⟨s, h, -⟩ := exists_at_run steps
  refine
    { refused := fun a hne => ?_
      invisible := fun hfree calls further hfinal hhanded hfree' =>
        forget_run_of_refused hfree hfinal hhanded hfree' further
      prompt := fun o limit hpublished hhanded hfree hlocked => ?_
      answered := fun o deadline late hpublished hhanded hroused hlocked => ?_
      assured := fun htold further => refusals_run_of_isDone ?_
      overflow := fun limit hlimit => by
        rw [step, step, Duration.deadline?_eq_none_iff.mpr hlimit]
      remains := remains_run }
  · obtain ⟨ha, ⟨deadline, hlate⟩, hlocked, hslot, hstep⟩ :=
      (moves_step (run {} steps) a).refusals.resolve_left hne
    obtain ⟨t, rfl, hcome⟩ := punctual_run steps deadline hlate
    refine ⟨ha, ⟨t, hlate, hcome⟩, hlocked, hslot, ?_, hstep⟩
    rw [h.slot, Whereabouts.slot_eq_pending_iff] at hslot
    rw [h.published, hslot]
    rfl
  · have hslot := h.slot_eq_ready hpublished hhanded (by simp [hfree])
    rw [step, whenFree_of_free hfree hlocked, handed_look_of_ready hslot, hhanded]
    rfl
  · have hslot := h.slot_eq_ready hpublished hhanded (by simp [hroused])
    simp [step, lookAgain, hroused, isLocked_eq_false_iff.mpr hlocked, handed_look_of_ready hslot,
      hhanded]
  · -- Whatever the consumer is told after it was told so is the same.
    have hordered := (List.pairwise_append.mp h.answers).2.2 true htold _ List.mem_cons_self
    rw [h.isDone]
    exact hordered rfl

end Exchange

end Deferral
