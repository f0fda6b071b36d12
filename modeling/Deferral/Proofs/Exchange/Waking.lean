import Deferral.Proofs.Exchange.Publication
import Deferral.Proofs.Exchange.Whereabouts

/-!
# No wake-up is lost in an exchange

The publisher notifies and wakes only after it has released the lock, so the consumer may poll and
begin to wait in between. What keeps it from being forgotten is that a consumer parks or leaves a
waker behind only while the cell is empty: whoever was there when the cell was filled is known to
the publisher, and whoever comes later finds the outcome.

Main statements:
* `attentive`: how it is told who waits, and who was woken.
* `noLostWakeup_run`: nobody who waits is forgotten.
-/

namespace Deferral

/-- Whether the publisher is still to notify a parked consumer. -/
def Publishing.notifies {W V : Type} : Publishing W V → Bool
  | .locked (.notify _) | .notifying _ => true
  | _ => false

/-- The waker that the publisher is still to wake. -/
def Publishing.waker? {W V : Type} : Publishing W V → Option W
  | .locked (.notify waker) | .notifying waker | .waking waker => waker
  | _ => none

namespace Exchange

variable {W V : Type} [Wakes W] {x : Exchange W V} {s : Whereabouts V}

/-- Whether the party of a waker is sure to learn of the outcome: the cell is empty and keeps a
waker for it, or the publisher is to wake such a waker, or it was woken since it last asked. -/
def Assured (x : Exchange W V) (w : W) : Prop :=
  (x.cell.slot = .pending ∧ ∃ v, x.cell.waker = some v ∧ v ≈ w) ∨
    (∃ v, x.publishing.waker? = some v ∧ v ≈ w) ∨ ∃ v ∈ x.woken, v ≈ w

/-- No step has forgotten a consumer that waits. -/
structure Watched (x : Exchange W V) : Prop where
  /-- A consumer is parked only as long as the cell is empty or it is to be notified. -/
  parked : ∀ deadline, x.attendance = .parked deadline →
    x.cell.slot = .pending ∨ x.publishing.notifies = true
  /-- The waker of the last poll that found nothing is sure to be woken. -/
  awaited : ∀ w, x.waiting = some w → x.Assured w
  /-- A consumer that has given a callback awaits nothing. -/
  left : x.attendance = .left → x.waiting = none

/-- What becomes of a consumer that waits is written down. -/
structure Attentive (x : Exchange W V) : Prop where
  /-- A poll that finds nothing awaits the outcome with its waker, which nobody has woken since. -/
  polls : x.attendance = .free → x.Unlocked → x.cell.slot = .pending → ∀ w,
    (x.step (.poll w)).waiting = some w ∧ (x.step (.poll w)).woken = []
  /-- It does so until the consumer polls again or gives a callback. -/
  keeps : ∀ a : Step W V, (∀ w, a ≠ .poll w) → (∀ callback, a ≠ .onComplete callback) →
    (x.step a).waiting = x.waiting
  /-- Only the publisher wakes, and only the waker that it has found. -/
  wakes : ∀ (a : Step W V) v, v ∈ (x.step a).woken →
    v ∈ x.woken ∨ a = .wake ∧ x.publishing = .waking (some v)
  /-- A wait that finds nothing parks. -/
  parks : x.attendance = .free → x.Unlocked → x.cell.slot = .pending →
    (x.step .wait).attendance = .parked none ∧
      ∀ limit, ∃ deadline, (x.step (.waitFor limit)).attendance = .parked deadline
  /-- It parks again if it was roused before its deadline and still finds nothing. -/
  parks_again : ∀ deadline, x.attendance = .roused deadline false → x.Unlocked →
    x.cell.slot = .pending → (x.step .lookAgain).attendance = .parked deadline

/-- No consumer of the exchange waits for something that will not come. -/
structure NoLostWakeup (x : Exchange W V) : Prop extends x.Watched, x.Attentive where
  /-- When the publication is over, nobody is parked, and the waker of the last poll that found
  nothing was woken. -/
  finished : x.owing = false → x.publishing = .idle →
    (∀ deadline, x.attendance ≠ .parked deadline) ∧
      ∀ w, x.waiting = some w → ∃ v ∈ x.woken, v ≈ w
  /-- This comes to pass when the publisher has taken the steps that it has still to take, whatever
  happens in between. -/
  finishes : x.owing = false → ∀ panics steps, (x.publishing.pending panics).Sublist steps →
    (x.run steps).publishing = .idle ∧ (∀ deadline, (x.run steps).attendance ≠ .parked deadline) ∧
      ∀ w, (x.run steps).waiting = some w → ∃ v ∈ (x.run steps).woken, v ≈ w

/-! ## What is written down -/

/-- The consumer awaits with the same waker as before, and nobody was woken. -/
structure Unmoved (x y : Exchange W V) : Prop where
  /-- The waker is the same. -/
  waiting_eq : y.waiting = x.waiting
  /-- The same wakers were woken. -/
  woken_eq : y.woken = x.woken

namespace Unmoved

omit [Wakes W] in
theorem mem_woken {y : Exchange W V} {v : W} (h : Unmoved x y) (hv : v ∈ y.woken) :
    v ∈ x.woken :=
  h.woken_eq ▸ hv

omit [Wakes W] in
/-- What the consumer does under the lock. -/
theorem whenFree {f : Exchange W V → Exchange W V} (hf : Unmoved x (f x)) :
    Unmoved x (x.whenFree f) := by
  rcases x.whenFree_cases f with hwhen | ⟨-, -, hwhen⟩ <;> rw [hwhen]
  · exact ⟨rfl, rfl⟩
  · exact hf

omit [Wakes W] in
/-- What the consumer does in a wait. -/
theorem look {missed : Exchange W V → Exchange W V} (hmissed : Unmoved x (missed x)) :
    Unmoved x (x.look missed) := by
  rcases x.look_cases missed with ⟨-, hlook⟩ | ⟨cell, o, hlook⟩ <;> rw [hlook]
  · exact hmissed
  · exact ⟨rfl, rfl⟩

omit [Wakes W] in
/-- The cell is given up. -/
theorem surrender (o : Outcome V) : Unmoved x (x.surrender o) := by
  unfold Exchange.surrender
  split
  next => split <;> exact ⟨rfl, rfl⟩
  next => exact ⟨rfl, rfl⟩

omit [Wakes W] in
/-- The consumer is roused. -/
theorem rouse : Unmoved x x.rouse := by
  unfold Exchange.rouse
  split <;> exact ⟨rfl, rfl⟩

/-- So it is with every step but a poll, a callback that is given, and the waking. -/
theorem step {a : Step W V} (hpoll : ∀ w, a ≠ .poll w)
    (hcallback : ∀ callback, a ≠ .onComplete callback) (hwake : a ≠ .wake) :
    Unmoved x (x.step a) := by
  cases a with
  | complete o | drop => exact surrender _
  | unlock =>
    rw [Exchange.step, unlock]
    split <;> exact ⟨rfl, rfl⟩
  | call panics =>
    rw [Exchange.step, call]
    split <;> exact ⟨rfl, rfl⟩
  | notify =>
    rw [Exchange.step, notify]
    split
    next waker _ =>
      have hroused : Unmoved { x with publishing := .waking waker } _ := rouse
      exact ⟨hroused.waiting_eq, hroused.woken_eq⟩
    next => exact ⟨rfl, rfl⟩
  | wake => exact absurd rfl hwake
  | ask => exact whenFree ⟨rfl, rfl⟩
  | poll w => exact absurd rfl (hpoll w)
  | wait | waitFor => exact whenFree (look ⟨rfl, rfl⟩)
  | onComplete callback => exact absurd rfl (hcallback callback)
  | rouse => exact rouse
  | lapse =>
    rw [Exchange.step, lapse]
    split
    next => split <;> exact ⟨rfl, rfl⟩
    next => exact ⟨rfl, rfl⟩
  | lookAgain =>
    rcases x.lookAgain_cases with hagain | ⟨deadline, late, -, -, hagain⟩ <;>
      rw [Exchange.step, hagain]
    · exact ⟨rfl, rfl⟩
    · exact look (by cases late <;> exact ⟨rfl, rfl⟩)
  | pass => exact ⟨rfl, rfl⟩

end Unmoved

omit [Wakes W] in
/-- Waking adds the waker that the publisher has found, if there is one. -/
theorem wake_cases (x : Exchange W V) : x.wake = x ∨ ∃ waker, x.publishing = .waking waker ∧
    x.wake = { x with publishing := .idle, woken := x.woken ++ waker.toList } := by
  unfold wake
  split
  next waker hp => exact .inr ⟨waker, hp, rfl⟩
  next => exact .inl rfl

/-- Nobody is woken by a poll. -/
theorem woken_poll_subset (w : W) : (x.step (.poll w)).woken ⊆ x.woken := by
  rw [step]
  rcases x.whenFree_cases (poll w) with hwhen | ⟨-, -, hwhen⟩ <;> rw [hwhen]
  · exact List.Subset.refl _
  · unfold poll
    split
    next => exact List.Subset.refl _
    next => exact List.nil_subset _

/-- Nor by giving a callback. -/
theorem woken_onComplete (callback : Callback) :
    (x.step (.onComplete callback)).woken = x.woken := by
  rw [step]
  rcases x.whenFree_cases (onComplete callback) with hwhen | ⟨-, -, hwhen⟩ <;> rw [hwhen]
  unfold onComplete
  split <;> rfl

/-- What becomes of a consumer that waits is written down. -/
theorem attentive (x : Exchange W V) : x.Attentive where
  polls hfree hlocked hslot w := by
    rw [step, whenFree_of_free hfree hlocked, poll, Cell.poll_of_pending hslot]
    exact ⟨rfl, rfl⟩
  keeps a hpoll hcallback := by
    by_cases hwake : a = .wake
    · subst hwake
      rcases x.wake_cases with hwoken | ⟨waker, -, hwoken⟩ <;> rw [step, hwoken]
    · exact (Unmoved.step hpoll hcallback hwake).waiting_eq
  wakes a v hv := by
    cases a with
    | wake =>
      rcases x.wake_cases with hwoken | ⟨waker, hp, hwoken⟩ <;> rw [step, hwoken] at hv
      · exact .inl hv
      · refine (List.mem_append.mp hv).imp_right fun hfound => ⟨rfl, ?_⟩
        rw [hp, Option.mem_toList.mp hfound]
    | poll w => exact .inl (woken_poll_subset w hv)
    | onComplete callback =>
      rw [woken_onComplete] at hv
      exact .inl hv
    | _ => exact .inl (Unmoved.mem_woken (.step (by simp) (by simp) (by simp)) hv)
  parks hfree hlocked hslot := by
    refine ⟨?_, fun limit => ⟨limit.deadline? x.clock, ?_⟩⟩ <;>
      rw [step, whenFree_of_free hfree hlocked, look_of_pending hslot] <;> rfl
  parks_again deadline hroused hlocked hslot := by
    rw [step, lookAgain_of_roused hroused hlocked, look_of_pending hslot]
    rfl

/-! ## Who waits -/

/-- In the beginning nobody waits. -/
theorem watched_unused : ({} : Exchange W V).Watched where
  parked := nofun
  awaited := nofun
  left := nofun

namespace Watched

/-- Whoever waits when the cell is filled becomes known to the publisher. -/
theorem surrender_of_owed (h : x.Watched) (hat : x.At s) (hs : s.outcome? = none)
    (o : Outcome V) : (x.surrender o).Watched := by
  have howing : x.owing = true := by simp [hat.owing, hs]
  simp only [Exchange.surrender, hat.idle hs, howing, if_true]
  -- A consumer that has left does not wait for anything; one that has not left has registered no
  -- callback, so the publisher notifies and wakes.
  by_cases hleft : x.attendance = .left
  · have hwaiting := h.left hleft
    exact
      { parked := by simp [hleft]
        awaited := by simp [hwaiting]
        left := fun _ => hwaiting }
  · rw [Cell.publish_of_no_callback (hat.callback_of_not_left hleft)]
    refine { h with parked := fun _ _ => .inr rfl, awaited := fun w hw => ?_ }
    rcases h.awaited w hw with ⟨_, hwaker⟩ | ⟨v, hv, _⟩ | hwoken
    · -- The publisher takes the waker from the cell.
      exact .inr (.inl hwaker)
    · rw [hat.idle hs] at hv
      cases hv
    · exact .inr (.inr hwoken)

/-- Giving the cell up forgets nobody. -/
theorem surrender (h : x.Watched) (hat : x.At s) (o : Outcome V) : (x.surrender o).Watched := by
  cases hs : s.outcome? with
  | none => exact h.surrender_of_owed hat hs o
  | some _ =>
    have howing : x.owing = false := by simp [hat.owing, hs]
    unfold Exchange.surrender
    split
    next => simpa [howing] using h
    next => exact h

/-- What the publisher does between its steps on the cell forgets nobody, as long as it still
notifies whom it was to notify and has woken, or is to wake, whom it was to wake. -/
theorem proceed (h : x.Watched) {p : Publishing W V} {woken : List W}
    (hnotifies : ∀ deadline, x.attendance = .parked deadline →
      x.publishing.notifies = true → p.notifies = true)
    (hwaker : ∀ v, x.publishing.waker? = some v → p.waker? = some v ∨ v ∈ woken)
    (hwoken : ∀ v ∈ x.woken, v ∈ woken) :
    { x with publishing := p, woken }.Watched := by
  refine { h with parked := fun deadline hp => ?_, awaited := fun w hw => ?_ }
  · exact (h.parked deadline hp).imp_right (hnotifies deadline hp)
  · rcases h.awaited w hw with hcell | ⟨v, hv, hvw⟩ | ⟨v, hv, hvw⟩
    · exact .inl hcell
    · rcases hwaker v hv with hp | hmem
      · exact .inr (.inl ⟨v, hp, hvw⟩)
      · exact .inr (.inr ⟨v, hmem, hvw⟩)
    · exact .inr (.inr ⟨v, hwoken v hv, hvw⟩)

/-- Releasing the lock forgets nobody. -/
theorem unlock (h : x.Watched) : x.unlock.Watched := by
  unfold Exchange.unlock
  split
  next hp =>
    exact h.proceed (by simp [hp, Publishing.notifies]) (by simp [hp, Publishing.waker?])
      fun _ hv => hv
  next waker hp =>
    have hwaker : ∀ v, x.publishing.waker? = some v → waker = some v ∨ v ∈ x.woken := by
      intro v hv
      rw [hp] at hv
      exact .inl hv
    exact h.proceed (p := .notifying waker) (by simp [Publishing.notifies]) hwaker fun _ hv => hv
  next => exact h

/-- Invoking a callback forgets nobody. -/
theorem call (h : x.Watched) (panics : Bool) : (x.call panics).Watched := by
  unfold Exchange.call
  split
  next hp =>
    have hidle : { x with publishing := .idle }.Watched :=
      h.proceed (by simp [hp, Publishing.notifies]) (by simp [hp, Publishing.waker?])
        fun _ hv => hv
    exact { hidle with }
  next => exact h

/-- A consumer may stop to wait at any time, and park while the cell is empty. -/
theorem attend (h : x.Watched) {a : Attendance}
    (hparked : ∀ deadline, a = .parked deadline → x.cell.slot = .pending)
    (hleft : a ≠ .left) : { x with attendance := a }.Watched where
  parked deadline ha := .inl (hparked deadline ha)
  awaited := h.awaited
  left ha := absurd ha hleft

/-- Rousing the consumer forgets nobody. -/
theorem rouse (h : x.Watched) : x.rouse.Watched := by
  unfold Exchange.rouse
  split
  next => exact h.attend nofun nofun
  next => exact h

/-- Notifying rouses the consumer if it is parked, so the publisher has none to notify after it. -/
theorem notify (h : x.Watched) : x.notify.Watched := by
  unfold Exchange.notify
  split
  next waker hp =>
    have hwaker : ∀ v, x.publishing.waker? = some v → waker = some v ∨ v ∈ x.woken := by
      intro v hv
      rw [hp] at hv
      exact .inl hv
    unfold Exchange.rouse
    split
    next deadline ha =>
      -- A consumer that was roused is no longer parked, so there is nobody left to notify.
      have hroused : { x with attendance := .roused deadline false }.Watched :=
        h.attend nofun nofun
      exact hroused.proceed (p := .waking waker) nofun hwaker fun _ hv => hv
    next hnot =>
      exact h.proceed (p := .waking waker) (fun deadline ha => absurd ha (hnot deadline)) hwaker
        fun _ hv => hv
  next => exact h

/-- Waking a waker records that it was woken. -/
theorem wake (h : x.Watched) : x.wake.Watched := by
  rcases x.wake_cases with hwoken | ⟨waker, hp, hwoken⟩ <;> rw [hwoken]
  · exact h
  · refine h.proceed (by simp [hp, Publishing.notifies]) (fun v hv => ?_) fun v hv => ?_
    · rw [hp] at hv
      obtain rfl : waker = some v := hv
      exact .inr (by simp)
    · exact List.mem_append_left _ hv

/-- A poll that finds nothing leaves a waker in the cell, and one that finds something awaits
nothing more. -/
theorem poll (h : x.Watched) (hat : x.At s) (hfree : x.attendance = .free) (w : W) :
    (x.poll w).Watched := by
  have hleft : x.attendance ≠ .left := by simp [hfree]
  cases hs : s.outcome? with
  | none =>
    have hslot : x.cell.slot = .pending := by rw [hat.slot, Whereabouts.slot_eq_pending_iff, hs]
    rw [Exchange.poll, Cell.poll_of_pending hslot]
    refine { h with awaited := fun v hv => ?_, left := fun ha => absurd ha hleft }
    obtain rfl : w = v := Option.some.inj hv
    exact .inl ⟨hslot, _, rfl, Cell.renew_equiv ..⟩
  | some o' =>
    obtain ⟨o, htake, _⟩ :=
      Whereabouts.take?_of_published hat.slot (by simp [hs]) (hat.carried?_of_not_left hleft)
    rw [Exchange.poll, Cell.poll_of_isDone (by simp [hat.isDone, hs]), htake]
    exact
      { parked := by simp [hfree]
        awaited := by simp
        left := fun _ => rfl }

/-- A wait parks only while the cell is empty, and ends with the outcome otherwise. -/
theorem look (h : x.Watched) (hat : x.At s) (hleft : x.attendance ≠ .left)
    {missed : Exchange W V → Exchange W V}
    (hmissed : x.cell.slot = .pending → (missed x).Watched) : (x.look missed).Watched := by
  cases hs : s.outcome? with
  | none =>
    rw [Exchange.look, Whereabouts.take?_of_owed hat.slot hs]
    exact hmissed (by rw [hat.slot, Whereabouts.slot_eq_pending_iff, hs])
  | some o' =>
    obtain ⟨o, htake, _⟩ :=
      Whereabouts.take?_of_published hat.slot (by simp [hs]) (hat.carried?_of_not_left hleft)
    rw [Exchange.look, htake]
    refine
      { parked := by simp
        awaited := fun w hw => ?_
        left := by simp }
    -- The wait ends, but the waker of an earlier poll is still to be woken.
    rcases h.awaited w hw with ⟨hslot, _⟩ | hassured
    · rw [hat.slot, Whereabouts.slot_eq_pending_iff, hs] at hslot
      cases hslot
    · exact .inr hassured

/-- A consumer that gives a callback awaits nothing more. -/
theorem onComplete (callback : Callback) :
    (x.onComplete callback).Watched := by
  unfold Exchange.onComplete
  split
  next => exact { parked := nofun, awaited := nofun, left := fun _ => rfl }
  next => exact { parked := nofun, awaited := nofun, left := fun _ => rfl }

/-- What a consumer does under the lock and in no call. -/
theorem whenFree (h : x.Watched) {f : Exchange W V → Exchange W V}
    (hf : x.attendance = .free → (f x).Watched) : (x.whenFree f).Watched := by
  rcases x.whenFree_cases f with hwhen | ⟨hfree, -, hwhen⟩ <;> rw [hwhen]
  · exact h
  · exact hf hfree

/-- A consumer that was roused parks again only while the cell is empty. -/
theorem lookAgain (h : x.Watched) (hat : x.At s) : x.lookAgain.Watched := by
  rcases x.lookAgain_cases with hagain | ⟨deadline, late, ha, -, hagain⟩ <;> rw [hagain]
  · exact h
  · refine h.look hat (by simp [ha]) fun hslot => ?_
    cases late with
    | true =>
      have hfree : { x with attendance := .free }.Watched := h.attend nofun nofun
      exact { hfree with }
    | false => exact h.attend (fun _ _ => hslot) nofun

/-- The deadline forgets nobody. -/
theorem lapse (h : x.Watched) : x.lapse.Watched := by
  unfold Exchange.lapse
  split
  next =>
    split
    · exact h.attend nofun nofun
    · exact h
  next => exact h

/-- No step forgets anybody who waits. -/
theorem step (h : x.Watched) (hat : x.At s) (a : Step W V) : (x.step a).Watched := by
  have hwait (hfree : x.attendance = .free) (deadline : Option Nat) :
      (x.look (park deadline)).Watched :=
    h.look hat (by simp [hfree]) fun hslot => h.attend (fun _ _ => hslot) nofun
  cases a with
  | complete o => exact h.surrender hat o
  | drop => exact h.surrender hat (.error .cancelled)
  | unlock => exact h.unlock
  | call panics => exact h.call panics
  | notify => exact h.notify
  | wake => exact h.wake
  | ask => exact h.whenFree fun _ => { h with }
  | poll w => exact h.whenFree fun hfree => h.poll hat hfree w
  | wait => exact h.whenFree fun hfree => hwait hfree none
  | waitFor limit => exact h.whenFree fun hfree => hwait hfree (limit.deadline? x.clock)
  | onComplete callback => exact h.whenFree fun _ => onComplete callback
  | rouse => exact h.rouse
  | lapse => exact h.lapse
  | lookAgain => exact h.lookAgain hat
  | pass t => exact { h with }

/-- No run forgets anybody who waits. -/
theorem run (h : x.Watched) (hat : x.At s) (steps : List (Step W V)) :
    (x.run steps).Watched ∧ ∃ s', (x.run steps).At s' := by
  induction steps generalizing x s with
  | nil => exact ⟨h, s, hat⟩
  | cons a steps ih =>
    -- Where the outcome is tells what the step finds in the cell.
    obtain ⟨s', hat', -⟩ := hat.step a
    exact ih (h.step hat a) hat'

/-- When the publication is over, everybody who waited was told. -/
theorem told (h : x.Watched) (hat : x.At s) (howing : x.owing = false)
    (hidle : x.publishing = .idle) : (∀ deadline, x.attendance ≠ .parked deadline) ∧
      ∀ w, x.waiting = some w → ∃ v ∈ x.woken, v ≈ w := by
  -- The cell was given up, so there is an outcome in it, or there was.
  have hslot : x.cell.slot ≠ .pending := by
    rw [hat.slot, Ne, Whereabouts.slot_eq_pending_iff]
    intro hs
    simp [hat.owing, hs] at howing
  constructor
  · intro deadline ha
    rcases h.parked deadline ha with hpending | hnotifies
    · exact hslot hpending
    · simp [hidle, Publishing.notifies] at hnotifies
  · intro w hw
    rcases h.awaited w hw with ⟨hpending, _⟩ | ⟨v, hv, _⟩ | hwoken
    · exact absurd hpending hslot
    · simp [hidle, Publishing.waker?] at hv
    · exact hwoken

/-- Nobody who waits is forgotten, now or when the publication is over. -/
theorem noLostWakeup (h : x.Watched) (hat : x.At s) : x.NoLostWakeup where
  toWatched := h
  toAttentive := x.attentive
  finished howing hidle := h.told hat howing hidle
  finishes howing panics steps hsteps := by
    obtain ⟨howing', hidle⟩ := publishing_run howing hsteps
    obtain ⟨hlater, s', hat'⟩ := h.run hat steps
    exact ⟨hidle, hlater.told hat' howing' hidle⟩

end Watched

/-- **No wake-up is lost.** After any sequence of steps of the publisher and the consumer, whoever
is parked or has left a waker behind will be told of the outcome, and was told when the publication
is over. -/
theorem noLostWakeup_run (steps : List (Step W V)) :
    (run {} steps : Exchange W V).NoLostWakeup := by
  obtain ⟨hwatched, s, hat⟩ := watched_unused.run at_unused steps
  exact hwatched.noLostWakeup hat

end Exchange

end Deferral
