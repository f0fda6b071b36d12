import Deferral.Proofs.System.Growth

/-!
# Nested reservations

A computation that waits for the result of a nested reservation owns its handle, and nobody else
can do anything with it. The handle stays what the computation has made of it for as long as the
computation waits, and the computation suspends only after the launch has returned.

Main statements:
* `tended_run`: in every run, whoever waits for a reservation has made it, and has its handle.
* `started_run`: in every run, a nested reservation is one that was launched.
-/

namespace Deferral

variable {V : Type}

/-- Whether a handle is one that has not started its computation. -/
def Handle.isCold : Handle → Bool
  | .reservation | .mono .idle | .maybe .idle | .stream .idle => true
  | _ => false

/-- The reservation whose result a computation in this phase looks for, or waits for. -/
def Phase.awaited? : Phase → Option ReservationId
  | .paused (.inner c) | .active (.engaged c) => some c
  | _ => none

/-! ## Handles -/

namespace Consumer

@[simp]
theorem handle_invoke (callback : Callback) (o : Outcome V) (c : Consumer V) :
    (invoke callback o c).handle = c.handle := by
  cases callback <;> rfl

@[simp]
theorem handle_publish (o : Outcome V) (c : Consumer V) : (c.publish o).handle = c.handle := by
  unfold publish
  split <;> simp [wake]

@[simp]
theorem handle_register (callback : Callback) (c : Consumer V) :
    (register callback c).handle = c.handle := by
  unfold register
  split <;> simp

@[simp]
theorem handle_attach (c : Consumer V) : c.attach.handle = c.handle := by
  unfold attach
  split <;> simp

@[simp]
theorem handle_drop (c : Consumer V) : c.drop.handle = .gone := by
  unfold drop
  split <;> rfl

/-- A caller that blocks has started the computation. -/
theorem isCold_blockingWait (limit : Option Duration) : (blockingWait limit).isCold = false := by
  cases limit <;> rfl

/-- What launches the computation is asked of a handle that has not started it. -/
theorem Launches.isCold {u : Use} {h h' : Handle} {callback? : Option Callback}
    (hl : Launches u h h' callback?) : h.isCold = true := by
  cases hl <;> rfl

/-- After the launch the handle is one that has started its computation. -/
theorem Launches.isCold_eq_false {u : Use} {h h' : Handle} {callback? : Option Callback}
    (hl : Launches u h h' callback?) : h'.isCold = false := by
  cases hl with
  | block limit | monoBlock limit => exact isCold_blockingWait limit
  | spawn | get | subscribe | mono | maybe | stream => rfl

/-- What goes on with a computation leads from a handle that has started it to another. -/
theorem Continues.isCold_eq_false {u : Use} {h h' : Handle} {callback? : Option Callback}
    (hc : Continues u h h' callback?) : h.isCold = false ∧ h'.isCold = false := by
  cases hc with
  | block limit => exact ⟨rfl, isCold_blockingWait limit⟩
  | join | joinWithin | get | subscribe => exact ⟨rfl, rfl⟩

/-- A computation that was started is not unstarted by anything that is done with the handle. -/
theorem Handling.isCold_eq_false {c c' : Consumer V} (h : c.Handling c')
    (hcold : c.handle.isCold = false) : c'.handle.isCold = false := by
  cases h with
  | reshape =>
    unfold Consumer.reshape
    split
    next hhandle => rw [hhandle] at hcold; cases hcold
    next => exact hcold
  | begin u =>
    cases c.begins u with
    | launched hl hbegin =>
      rw [hbegin]
      exact hl.isCold_eq_false
    | continued hc hbegin =>
      rw [hbegin]
      exact hc.isCold_eq_false.2
    | answered _ hbegin | told _ hbegin => rw [hbegin]; rfl
    | ignored _ _ hbegin =>
      rw [hbegin]
      exact hcold
  | wait => rfl
  | poll w =>
    cases c.polls w with
    | mono _ _ hpoll | maybe _ _ hpoll => rw [hpoll]; rfl
    | pending _ _ hpoll | future _ _ hpoll | stream _ _ hpoll | done _ hpoll | ignored hpoll =>
      rw [hpoll]
      exact hcold
  | fetch =>
    cases c.fetches with
    | fetched _ _ hfetch => rw [hfetch]; rfl
    | pending _ _ hfetch | ignored _ hfetch =>
      rw [hfetch]
      exact hcold
  | expire =>
    cases c.expires with
    | delivered _ _ hexpire | handedBack _ _ hexpire | givenUp _ _ hexpire => rw [hexpire]; rfl
    | unbounded _ _ _ hexpire =>
      rw [hexpire]
      exact hcold
  | complete =>
    unfold Consumer.complete
    split
    · simp [Handle.isCold]
    · exact hcold
  | drop => rw [handle_drop]; rfl

end Consumer

/-- A handle that a computation makes is one that has started its computation. -/
theorem Access.isCold_handle_consumer (access : Access) :
    (access.consumer : Consumer V).handle.isCold = false := by
  cases access <;> rfl

/-- A reservation whose result was looked for: with the result there, its handle is dropped. -/
def Reservation.lookedAt (w : Waker) (x : Reservation V) : Reservation V :=
  match (x.consumer.look w).2 with
  | some _ => { x with consumer := (x.consumer.look w).1 }.dropHandle
  | none => { x with consumer := (x.consumer.look w).1 }

theorem Reservation.handle_dropHandle (x : Reservation V) :
    x.dropHandle.consumer.handle = .gone := by
  rw [consumer_dropHandle, Consumer.handle_drop]

/-- A handle with the result there is dropped, and otherwise it is left alone. -/
theorem Reservation.handle_lookedAt (w : Waker) (x : Reservation V) :
    (x.lookedAt w).consumer.handle =
      if (x.consumer.look w).2.isSome then .gone else x.consumer.handle := by
  unfold Reservation.lookedAt
  split
  next hd => rw [hd]; exact Reservation.handle_dropHandle _
  next hd => rw [hd]; exact Consumer.handle_of_look_eq_none hd

namespace System

variable {w : System V} {a : Action V} {r : ReservationId} {x x' : Reservation V}

/-- The handle changes only when something is done with it. -/
theorem Change.handle_eq_or_handles (h : w.Change r a x x') :
    x'.consumer.handle = x.consumer.handle ∨ w.Handles r a := by
  cases h with
  | handle _ hby => exact .inr hby
  | attach => exact .inl (Consumer.handle_attach _)
  | refuse | lose | finish | drop => exact .inl (Consumer.handle_publish _ _)
  | launch | clear | clearDirectly | queue | letGo | abort | discard | start | advance | pause
  | engage => exact .inl rfl

/-- The handle changes only when something is done with it. -/
theorem Changes.handle_eq (h : w.Changes r a x x') (hby : ¬w.Handles r a) :
    x'.consumer.handle = x.consumer.handle :=
  h.preserve (P := fun y => y.consumer.handle = x.consumer.handle)
    (fun _ _ hchange hy => (hchange.handle_eq_or_handles.resolve_right hby).trans hy) rfl

/-- A launch that has got past handing the computation on does not go back. -/
theorem Change.isLaunched (h : w.Change r a x x') (hx : x.phase.isLaunched = true) :
    x'.phase.isLaunched = true := by
  cases h with
  | handle | attach | letGo | abort => exact hx
  | launch hphase | clear hphase | clearDirectly hphase =>
    rw [hphase] at hx
    cases hx
  | refuse | queue | lose | discard | start | advance | pause | engage | finish | drop => rfl

/-- A launch that has got past handing the computation on does not go back. -/
theorem Changes.isLaunched (h : w.Changes r a x x') (hx : x.phase.isLaunched = true) :
    x'.phase.isLaunched = true :=
  h.preserve (fun _ _ hchange => hchange.isLaunched) hx

end System

/-! ## Nested reservations are started -/

/-- A nested reservation was launched once, and its handle is one that has started it. -/
structure Reservation.Started (x : Reservation V) : Prop where
  /-- It is not waiting to be launched. -/
  ne_captured : x.parent ≠ none → x.phase ≠ .captured
  /-- It was launched once. -/
  launches_eq : x.parent ≠ none → x.launches = 1
  /-- Its handle is not one that would launch it. -/
  isCold_eq_false : x.parent ≠ none → x.consumer.handle.isCold = false

namespace System

variable {w : System V} {a : Action V} {r : ReservationId} {x x' : Reservation V}

/-- A reservation that a computation makes is launched at once. -/
theorem New.started (h : w.New a x) : x.Started := by
  cases h with
  | reserve => exact ⟨absurd rfl, absurd rfl, absurd rfl⟩
  | await => exact ⟨nofun, fun _ => rfl, fun _ => Access.isCold_handle_consumer _⟩

/-- No change takes a launch back, or launches again. -/
theorem Change.started (h : w.Change r a x x') (hx : x.Started) : x'.Started := by
  cases h with
  | handle hc =>
    exact ⟨hx.ne_captured, hx.launches_eq, fun h => hc.isCold_eq_false (hx.isCold_eq_false h)⟩
  | attach =>
    exact ⟨hx.ne_captured, hx.launches_eq,
      fun h => (Consumer.handle_attach _).symm ▸ hx.isCold_eq_false h⟩
  | letGo | abort => exact ⟨hx.ne_captured, hx.launches_eq, hx.isCold_eq_false⟩
  | refuse | lose | finish | drop =>
    exact ⟨nofun, hx.launches_eq,
      fun h => (Consumer.handle_publish _ _).symm ▸ hx.isCold_eq_false h⟩
  | launch hphase => exact ⟨nofun, fun h => absurd hphase (hx.ne_captured h), hx.isCold_eq_false⟩
  | clear | clearDirectly | queue | discard | start | advance | pause | engage =>
    exact ⟨nofun, hx.launches_eq, hx.isCold_eq_false⟩

/-- In every run, a nested reservation is one that was launched. -/
theorem started_run {actions : List (Action V)}
    (h : (run {} actions).reservations[r]? = some x) : x.Started :=
  forall_run (fun _ _ _ hnew => hnew.started) (fun _ _ _ _ _ hchange => hchange.started) h

/-! ## Who waits for a reservation -/

/-- The computation of `p`, which is `x`, waits for the result of the reservation `c`, which is `z`.
It has made that reservation, and the handle is the one it needs. -/
structure Tends (w : System V) (p : ReservationId) (x : Reservation V) (c : ReservationId)
    (access : Access) (z : Reservation V) : Prop where
  /-- The reservation is there. -/
  getElem?_eq : w.reservations[c]? = some z
  /-- The computation has made it. -/
  parent_eq : z.parent = some p
  /-- Waiting for it is the next step. -/
  rest_eq : ∃ rest, x.rest = .await access z.scope z.computation rest
  /-- Its handle is the one that this way of waiting needs. -/
  handle_eq : z.consumer.handle = (access.consumer : Consumer V).handle
  /-- The computation suspends only if this is its way of waiting, and the launch has returned. -/
  suspends : x.phase = .paused (.inner c) → access.blocks = false ∧ z.phase.isLaunched = true

/-- Whoever waits for a reservation has made it, and has its handle. -/
def Tended (w : System V) : Prop :=
  ∀ p x c, w.reservations[p]? = some x → x.phase.awaited? = some c →
    ∃ access z, w.Tends p x c access z

/-- During the action `a` the computation of `p`, which is `x`, waits for the reservation `c`: it
did before, or it has made the reservation just now. -/
def Turned (w : System V) (p : ReservationId) (a : Action V) (x : Reservation V)
    (c : ReservationId) : Prop :=
  (∃ access z, w.Tends p x c access z) ∨
    x.phase = .active (.engaged c) ∧ ∃ y, w.Makes p a y c ∧ x.rest = y.rest

/-- What is waited for depends on the phase and on the next step only. -/
theorem Turned.congr {p c : ReservationId} (h : w.Turned p a x c) (hphase : x'.phase = x.phase)
    (hrest : x'.rest = x.rest) : w.Turned p a x' c := by
  rcases h with ⟨access, z, h⟩ | ⟨hengaged, y, hmakes, hy⟩
  · exact .inl ⟨access, z, h.getElem?_eq, h.parent_eq, hrest ▸ h.rest_eq, h.handle_eq,
      hphase ▸ h.suspends⟩
  · exact .inr ⟨hphase.trans hengaged, y, hmakes, hrest.trans hy⟩

/-- A computation turns only to a reservation that it has made. -/
theorem Change.turned {p : ReservationId} (h : w.Change p a x x')
    (hx : ∀ c, x.phase.awaited? = some c → w.Turned p a x c) :
    ∀ c, x'.phase.awaited? = some c → w.Turned p a x' c := by
  intro c hc
  cases h with
  | handle | attach | letGo | abort => exact (hx c hc).congr rfl rfl
  | launch | refuse | clear | clearDirectly | queue | lose | discard | start | advance | finish
  | drop => cases hc
  | pause pause _ _ hinner =>
    -- A computation is suspended on a reservation only after it has looked for its result.
    have hpause : pause = .inner c := by
      cases pause <;> simp_all [Phase.awaited?]
    subst hpause
    obtain ⟨hphase, ⟨access', s, inner, rest, hrest', hblocks⟩, y, hy, hlaunched⟩ := hinner c rfl
    rcases hx c (by rw [hphase]; rfl) with ⟨access, z, h⟩ | ⟨-, y', hmakes, -⟩
    · obtain ⟨rest', hrest⟩ := h.rest_eq
      obtain ⟨rfl, -⟩ := Computation.await.inj (hrest.symm.trans hrest')
      obtain rfl := Option.some.inj (h.getElem?_eq.symm.trans hy)
      exact .inl ⟨access, z, hy, h.parent_eq, ⟨rest', hrest⟩, h.handle_eq,
        fun _ => ⟨hblocks, hlaunched⟩⟩
    · -- A reservation that was made just now is not yet there to be looked at.
      have hlt := (List.getElem?_eq_some_iff.mp hy).1
      rw [hmakes.eq_length] at hlt
      exact absurd hlt (Nat.lt_irrefl _)
  | engage activity _ hinner =>
    have hactivity : activity = .engaged c := by
      cases activity <;> simp_all [Phase.awaited?]
    subst hactivity
    rcases hinner c rfl with hpaused | hmakes
    · rcases hx c (by rw [hpaused]; rfl) with ⟨access, z, h⟩ | ⟨hengaged, -⟩
      · exact .inl ⟨access, z, h.getElem?_eq, h.parent_eq, h.rest_eq, h.handle_eq, nofun⟩
      · cases hpaused.symm.trans hengaged
    · exact .inr ⟨rfl, x, hmakes, rfl⟩

/-- A reservation that is added waits for nothing. -/
theorem New.awaited?_eq_none (h : w.New a x) : x.phase.awaited? = none := by
  cases h <;> rfl

/-- A reservation that a computation makes comes after the one of that computation. -/
theorem parent_lt_run {actions : List (Action V)} {p : ReservationId}
    (h : (run {} actions).reservations[r]? = some x) (hparent : x.parent = some p) : p < r := by
  induction h using run_induction with
  | start h => cases h
  | new _ hnone hnew =>
    cases hnew with
    | reserve => cases hparent
    | await hy =>
      obtain rfl := Option.some.inj hparent
      exact Nat.lt_of_lt_of_le (List.getElem?_eq_some_iff.mp hy).1
        (List.getElem?_eq_none_iff.mp hnone)
  | act _ _ hchanges ih => exact ih ((Changes.grows hchanges).parent_eq.symm.trans hparent)

/-- A computation that waits for a nested reservation makes it first. -/
theorem getElem?_step_await {access : Access} {s : ScopeId} {inner rest : Computation ScopeId V}
    (hx : w.reservations[r]? = some x) (hphase : x.phase = .active .step)
    (hrest : x.rest = .await access s inner rest) :
    (w.step r).reservations[w.reservations.length]? =
      some { label := innerLabel x, name := none, parent := some r, scope := s,
             computation := inner, rest := inner, consumer := access.consumer,
             phase := .launching, launches := 1 } := by
  have hcan : w.canStep x = true := by simp [canStep, hphase]
  have hstep : w.step r = w.takeStep r x := by simp [step, hx, hcan, hphase]
  have hlength : (w.setPhase r (.active (.engaged w.reservations.length))).reservations.length =
      w.reservations.length := List.length_modify ..
  rw [hstep, reservations_takeStep_await hrest hx,
    List.getElem?_append_right (Nat.le_of_eq hlength), hlength, Nat.sub_self]
  rfl

/-- A task that is about to look for the result of a nested reservation does so. -/
theorem step_of_engaged {access : Access} {c : ReservationId} {s : ScopeId}
    {inner rest : Computation ScopeId V} (hx : w.reservations[r]? = some x)
    (hphase : x.phase = .active (.engaged c)) (hrest : x.rest = .await access s inner rest)
    (hcan : w.canStep x = true) : w.step r = w.engage r c access s inner rest := by
  simp [step, hx, hcan, hphase, hrest]

/-- The waker of a computation that waits: a task has its own, a thread that blocks has another. -/
def waker (r : ReservationId) (access : Access) : Waker :=
  if access.blocks then .thread else .task r

/-- The handle of a nested reservation is dropped as soon as the result is there. -/
theorem getElem?_engage {c : ReservationId} {z : Reservation V} (hz : w.reservations[c]? = some z)
    (hne : r ≠ c) (access : Access) (s : ScopeId) (inner rest : Computation ScopeId V) :
    (w.engage r c access s inner rest).reservations[c]? = some (z.lookedAt (waker r access)) := by
  rw [engage_eq hz]
  extract_lets looked w'
  have hz' : w'.reservations[c]? = some { z with consumer := looked.1 } := by
    unfold w' updateConsumer
    rw [reservations_update, List.getElem?_modify_eq, hz]
    rfl
  have hlooked : z.consumer.look (waker r access) = looked := rfl
  unfold Reservation.lookedAt
  rw [hlooked]
  rcases looked.2 with _ | d
  · dsimp only
    split
    · exact hz'
    · rw [setPhase, reservations_update, List.getElem?_modify_ne _ _ hne, hz']
  · dsimp only
    rw [advance, reservations_releaseAll, reservations_update, List.getElem?_modify_ne _ _ hne,
      reservations_dropHandle, List.getElem?_modify_eq, hz']
    rfl

/-- A computation that has got the result of a nested reservation goes on to its next step. -/
theorem awaited?_engage {c : ReservationId} {z : Reservation V} {access : Access} {s : ScopeId}
    {inner rest : Computation ScopeId V} (hz : w.reservations[c]? = some z)
    (hx' : (w.engage r c access s inner rest).reservations[r]? = some x')
    (hlook : (z.consumer.look (waker r access)).2 ≠ none) : x'.phase.awaited? = none := by
  rw [engage_eq hz] at hx'
  extract_lets looked w' at hx'
  have hlooked : z.consumer.look (waker r access) = looked := rfl
  rw [hlooked] at hlook
  split at hx'
  next =>
    rw [advance, reservations_releaseAll, reservations_update, List.getElem?_modify_eq] at hx'
    obtain ⟨y, -, rfl⟩ := Option.map_eq_some_iff.mp hx'
    rfl
  next hd => exact absurd hd hlook

/-- A computation that looks for a result and still waits leaves the handle alone. -/
theorem exists_handle_eq_step {c : ReservationId} {z : Reservation V} {access : Access}
    {s : ScopeId} {inner rest : Computation ScopeId V} (hx : w.reservations[r]? = some x)
    (hphase : x.phase = .active (.engaged c)) (hrest : x.rest = .await access s inner rest)
    (hz : w.reservations[c]? = some z) (hne : r ≠ c)
    (hx' : (w.step r).reservations[r]? = some x') (hawaits : x'.phase.awaited? = some c) :
    ∃ z', (w.step r).reservations[c]? = some z' ∧
      z'.consumer.handle = z.consumer.handle := by
  by_cases hcan : w.canStep x = true
  · rw [step_of_engaged hx hphase hrest hcan] at hx' ⊢
    refine ⟨_, getElem?_engage hz hne access s inner rest, ?_⟩
    -- Had it found something, it would no longer wait for the reservation.
    have hlook : (z.consumer.look (waker r access)).2 = none := by
      by_contra hlook
      cases (awaited?_engage hz hx' hlook).symm.trans hawaits
    unfold Reservation.lookedAt
    rw [hlook]
    exact Consumer.handle_of_look_eq_none hlook
  · have hstep : w.step r = w := by simp [step, hx, hcan]
    rw [hstep]
    exact ⟨z, hz, rfl⟩

/-- A task that is dropped while it waits for a nested reservation drops its handle. -/
theorem getElem?_dropTask_inner {c : ReservationId} {z : Reservation V}
    (hx : w.reservations[r]? = some x) (hphase : x.phase = .paused (.inner c))
    (hdoomed : w.isDoomed x = true) (hz : w.reservations[c]? = some z) (hne : r ≠ c) :
    (w.dropTask r).reservations[c]? = some z.dropHandle := by
  simp only [dropTask, hx, if_pos hdoomed, hphase]
  rw [reservations_concludeWith, List.getElem?_modify_ne _ _ hne, reservations_dropHandle,
    List.getElem?_modify_eq, hz]
  rfl

/-- While a computation waits for a reservation, nobody does anything with the handle that shows. -/
theorem Tended.exists_handle_eq {p c : ReservationId} {z : Reservation V} (hw : w.Tended)
    (hx : w.reservations[p]? = some x) (hz : w.reservations[c]? = some z)
    (hparent : z.parent = some p) (hne : p ≠ c) (hx' : (w.act a).reservations[p]? = some x')
    (hawaits : x'.phase.awaited? = some c) :
    ∃ z', (w.act a).reservations[c]? = some z' ∧ z'.consumer.handle = z.consumer.handle := by
  obtain ⟨z', hz', hchanges⟩ := exists_changes_act hz a
  by_cases hby : w.Handles c a
  · -- Whoever does something with it waits for it, and so is this computation.
    have self {q : ReservationId} {y : Reservation V} (hy : w.reservations[q]? = some y)
        (hawaited : y.phase.awaited? = some c) : q = p ∧ y = x := by
      obtain ⟨access, z₀, htends⟩ := hw q y c hy hawaited
      obtain rfl := Option.some.inj (hz.symm.trans htends.getElem?_eq)
      obtain rfl := Option.some.inj (hparent.symm.trans htends.parent_eq)
      exact ⟨rfl, Option.some.inj (hy.symm.trans hx)⟩
    cases hby with
    | @caller _ y _ hy hoffered =>
      obtain rfl := Option.some.inj (hz.symm.trans hy)
      simp [isOffered, hparent] at hoffered
    | step hy hphase =>
      obtain ⟨rfl, rfl⟩ := self hy (by rw [hphase]; rfl)
      obtain ⟨access, z₀, htends⟩ := hw _ _ c hx (by rw [hphase]; rfl)
      obtain ⟨rest, hrest⟩ := htends.rest_eq
      exact exists_handle_eq_step hx hphase hrest hz hne hx' hawaits
    | dropTask hy hphase hdoomed =>
      obtain ⟨rfl, rfl⟩ := self hy (by rw [hphase]; rfl)
      obtain ⟨x'', hx'', hdropped, -⟩ :=
        exists_getElem?_dropTask hx (by rw [hphase]; rfl) hdoomed
      obtain rfl := Option.some.inj (hx'.symm.trans hx'')
      rw [hdropped] at hawaits
      cases hawaits
  · exact ⟨z', hz', Changes.handle_eq hchanges hby⟩

/-- In every run, whoever waits for a reservation has made it, and has its handle. -/
theorem tended_run (actions : List (Action V)) : Tended (run {} actions) := by
  induction actions using List.reverseRecOn with
  | nil => intro p x c hx; cases hx
  | append_singleton actions a ih =>
    intro p x' c hx' hawaits
    rw [run_concat] at hx' ⊢
    rcases new_or_changes_of_act hx' with hnew | ⟨x, hx, hchanges⟩
    · cases hnew.awaited?_eq_none.symm.trans hawaits
    · -- Whoever waits now has made what it waits for, earlier or by this very step.
      have hturned := Changes.preserve
        (P := fun y => ∀ c, y.phase.awaited? = some c → Turned (run {} actions) p a y c)
        (fun _ _ hchange hy => hchange.turned hy) hchanges
        (fun c h => .inl (ih p x c hx h)) c hawaits
      rcases hturned with ⟨access, z, htends⟩ | ⟨hphase, y, hmakes, hrest⟩
      · -- The reservation was there before, and is left alone.
        obtain ⟨z', hz', hzchanges⟩ := exists_changes_act htends.getElem?_eq a
        have hgrows := Changes.grows hzchanges
        have hlt := parent_lt_run htends.getElem?_eq htends.parent_eq
        obtain ⟨z'', hz'', hhandle⟩ := ih.exists_handle_eq hx htends.getElem?_eq htends.parent_eq
          (Nat.ne_of_lt hlt) hx' hawaits
        obtain rfl := Option.some.inj (hz'.symm.trans hz'')
        refine ⟨access, z', hz', hgrows.parent_eq.trans htends.parent_eq, ?_,
          hhandle.trans htends.handle_eq, fun hpaused => ?_⟩
        · rw [hgrows.scope_eq, hgrows.computation_eq]
          exact htends.rest_eq
        · exact (htends.suspends hpaused).imp_right (Changes.isLaunched hzchanges)
      · -- The reservation was made by this step.
        obtain ⟨rfl, hy, hstep, ⟨access, s, inner, rest, hawait⟩, rfl⟩ := hmakes
        refine ⟨access, _, getElem?_step_await hy hstep hawait, rfl,
          ⟨rest, hrest.trans hawait⟩, rfl, fun hpaused => ?_⟩
        cases hphase.symm.trans hpaused

/-- In every run, nobody waits for a reservation that a caller has made. -/
theorem awaited?_ne_of_parent_eq_none {actions : List (Action V)} {q : ReservationId}
    {y : Reservation V} (hx : (run {} actions).reservations[r]? = some x)
    (hparent : x.parent = none)
    (hy : (run {} actions).reservations[q]? = some y) : y.phase.awaited? ≠ some r := by
  intro hawaits
  obtain ⟨access, z, htends⟩ := tended_run actions q y r hy hawaits
  obtain rfl := Option.some.inj (hx.symm.trans htends.getElem?_eq)
  cases hparent.symm.trans htends.parent_eq

/-- In every run, what is done with the handle of a reservation that a caller has made, a caller
does. -/
theorem Handles.caller_of_parent_eq_none {actions : List (Action V)}
    (h : (run {} actions).Handles r a) (hx : (run {} actions).reservations[r]? = some x)
    (hparent : x.parent = none) : a.handle? = some r ∧ isOffered x = true := by
  cases h with
  | caller ha hy hoffered =>
    obtain rfl := Option.some.inj (hx.symm.trans hy)
    exact ⟨ha, hoffered⟩
  | step hy hphase =>
    exact absurd (by rw [hphase]; rfl) (awaited?_ne_of_parent_eq_none hx hparent hy)
  | dropTask hy hphase =>
    exact absurd (by rw [hphase]; rfl) (awaited?_ne_of_parent_eq_none hx hparent hy)

end System

end Deferral
