import Deferral.Proofs.System.Change

/-!
# Actions are sequences of changes

Every operation of a system, and so every action, takes a reservation through a sequence of the
changes that `Change` lists. The operations are treated one by one in the order of their
definitions; an operation that is built from others composes their sequences.

Main statements:
* `exists_changes_act`: what an action does to a reservation.
* `new_or_changes_of_act`: where a reservation comes from that is there after an action.
-/

namespace Deferral.System

variable {V : Type} {w₀ w w' : System V} {a : Action V} {r : ReservationId}

/-- A task that turns to a nested reservation looks for the result. -/
theorem engage_eq {z : Reservation V} {child : ReservationId}
    (hz : w.reservations[child]? = some z) (access : Access) (s : ScopeId)
    (inner rest : Computation ScopeId V) :
    w.engage r child access s inner rest =
      let looked := z.consumer.look (if access.blocks then .thread else .task r)
      let w' := w.updateConsumer child fun _ => looked.1
      match looked.2 with
      | some d => (w'.dropHandle child).advance r (s :: inner.mentions) rest [.inner d]
      | none => if access.blocks then w' else w'.setPhase r (.paused (.inner child)) := by
  rw [System.engage, hz]
  rfl

/-- The system `w'` comes from `w` by changes that the action `a` can make in the system `w₀`. -/
structure Follows (w₀ : System V) (a : Action V) (w w' : System V) : Prop where
  /-- No reservation is added. -/
  length_eq : w'.reservations.length = w.reservations.length
  /-- Every reservation goes through a sequence of changes. -/
  exists_changes : ∀ r x, w.reservations[r]? = some x →
    ∃ x', w'.reservations[r]? = some x' ∧ w₀.Changes r a x x'

namespace Follows

/-- Nothing happens to the reservations. -/
theorem of_eq (h : w'.reservations = w.reservations) : Follows w₀ a w w' where
  length_eq := by rw [h]
  exists_changes _ x hx := ⟨x, by rw [h, hx], .refl⟩

/-- Nothing happens. -/
theorem refl : Follows w₀ a w w :=
  of_eq rfl

/-- One thing happens after the other. -/
theorem trans {w'' : System V} (h : Follows w₀ a w w') (h' : Follows w₀ a w' w'') :
    Follows w₀ a w w'' where
  length_eq := h'.length_eq.trans h.length_eq
  exists_changes r x hx := by
    obtain ⟨x', hx', hchanges⟩ := h.exists_changes r x hx
    obtain ⟨x'', hx'', hchanges'⟩ := h'.exists_changes r x' hx'
    exact ⟨x'', hx'', hchanges.trans hchanges'⟩

/-- A sequence of changes happens to one reservation. -/
theorem of_modify {f : Reservation V → Reservation V}
    (h : w'.reservations = w.reservations.modify r f)
    (hf : ∀ x, w.reservations[r]? = some x → w₀.Changes r a x (f x)) : Follows w₀ a w w' where
  length_eq := by rw [h, List.length_modify]
  exists_changes q x hx := by
    rw [h]
    by_cases hq : r = q
    · subst hq
      exact ⟨f x, by rw [List.getElem?_modify_eq, hx]; rfl, hf x hx⟩
    · exact ⟨x, by rw [List.getElem?_modify_ne _ _ hq, hx], .refl⟩

/-- A sequence of changes happens to one reservation, which is known. -/
theorem of_modify_known {x : Reservation V} {f : Reservation V → Reservation V}
    (hx : w.reservations[r]? = some x) (h : w'.reservations = w.reservations.modify r f)
    (hf : w₀.Changes r a x (f x)) : Follows w₀ a w w' := by
  refine of_modify h fun y hy => ?_
  obtain rfl : x = y := Option.some.inj (hx.symm.trans hy)
  exact hf

/-- Something is done with the handle of a reservation. -/
theorem updateConsumer {f : Consumer V → Consumer V}
    (hf : ∀ x, w.reservations[r]? = some x → x.consumer.Handling (f x.consumer))
    (hby : w₀.Handles r a) : Follows w₀ a w (w.updateConsumer r f) :=
  of_modify rfl fun x hx => .single (.handle (hf x hx) hby)

/-- An operation on a handle that is offered. -/
theorem onOffered {f : Reservation V → System V}
    (hf : ∀ x, w.reservations[r]? = some x → isOffered x = true → Follows w₀ a w (f x)) :
    Follows w₀ a w (w.onOffered r f) := by
  unfold System.onOffered
  split
  next x hx =>
    split
    next hoffered => exact hf x hx hoffered
    next => exact refl
  next => exact refl

/-! ## Launches -/

theorem startLaunch (u : Use) : Follows w₀ (.use r u) w (w.startLaunch r) := by
  refine of_modify rfl fun x _ => ?_
  split
  next hphase => exact .single (.launch hphase ⟨u, rfl⟩)
  next => exact .refl

theorem testClosed : Follows w (.testClosed r) w (w.testClosed r) := by
  unfold System.testClosed
  split
  next x hx =>
    split
    next hphase =>
      split
      next hclosed =>
        exact of_modify_known hx (reservations_concludeWith ..)
          (.single (.refuse rfl hx hphase hclosed))
      next hopen =>
        exact of_modify_known hx (reservations_update ..)
          (.single (.clear hphase (by simpa using hopen) rfl))
    next => exact refl
  next => exact refl

theorem spawn (hpool : ∀ s, w.poolAlive s = w₀.poolAlive s)
    (ha : a = .spawn r ∨ a = .runDirectly r) : Follows w₀ a w (w.spawn r) := by
  unfold System.spawn
  split
  next x hx =>
    split
    next hphase =>
      split
      next halive =>
        exact of_modify_known hx (reservations_update ..)
          (.single (.queue hphase (by rw [← hpool, halive]) ha))
      next hdead =>
        -- It counts as handed to the pool before the pool drops it.
        have hmodify := reservations_concludeWith (w.update r fun x => { x with spawned := true })
          r .dropped .dropped (.error .cancelled)
        rw [reservations_update, List.modify_modify_eq] at hmodify
        exact of_modify_known hx hmodify
          (.single (.lose hphase (by rw [← hpool]; simpa using hdead) ha))
    next => exact refl
  next => exact refl

theorem letGo : Follows w₀ (.letGo r) w (w.letGo r) := by
  unfold System.letGo
  split
  next x hx =>
    split
    next hlaunched =>
      -- Dropping the reference may shut the pool down, which leaves the reservations alone.
      rw [Bool.and_eq_true] at hlaunched
      exact of_modify_known hx (reservations_release ..) (.single (.letGo hlaunched.2 rfl))
    next => exact refl
  next => exact refl

theorem attach : Follows w₀ (.attach r) w (w.attach r) := by
  unfold System.attach
  split
  next =>
    split
    · exact of_modify rfl fun _ _ => .single (.attach rfl)
    · exact refl
  next => exact refl

theorem spawnDirectly (hpool : ∀ s, w.poolAlive s = w₀.poolAlive s) :
    Follows w₀ (.runDirectly r) w (w.spawnDirectly r) := by
  refine trans (of_modify (reservations_update ..) fun x _ => ?_) (spawn hpool (.inr rfl))
  split
  next hphase => exact .single (.clearDirectly hphase rfl)
  next => exact .refl

theorem abort (hasks : ∀ x, w.reservations[r]? = some x → w₀.AsksAbort r a) :
    Follows w₀ a w (w.abort r) := by
  refine of_modify rfl fun x hx => ?_
  split
  next hspawned => exact .single (.abort (hasks x hx) hspawned)
  next => exact .refl

theorem dropHandle (hby : w₀.Handles r a) (hasks : ∀ x, w.reservations[r]? = some x →
      Consumer.givesUp x.consumer.handle = true → w₀.AsksAbort r a) :
    Follows w₀ a w (w.dropHandle r) := by
  refine of_modify (reservations_dropHandle w r) fun x hx => ?_
  have hdrop : w₀.Changes r a x { x with consumer := x.consumer.drop } :=
    .single (.handle .drop hby)
  unfold Reservation.dropHandle
  split
  next hgives =>
    -- Only what was handed to a pool can be aborted.
    cases hspawned : x.spawned with
    | true => simpa [hspawned] using hdrop.tail (.abort (hasks x hx hgives) hspawned)
    | false => simpa [hspawned] using hdrop
  next =>
    split
    next hphase => exact hdrop.tail (.discard hphase hby)
    next => exact hdrop

/-! ## Tasks -/

theorem setPhase {x : Reservation V} {phase : Phase} (hx : w.reservations[r]? = some x)
    (h : w₀.Change r a x { x with phase }) : Follows w₀ a w (w.setPhase r phase) :=
  of_modify_known hx rfl (.single h)

theorem advance {x : Reservation V} {step : List ScopeId} {rest : Computation ScopeId V}
    {events : List (Event V)} (hx : w.reservations[r]? = some x) (hstep : x.rest.hasStep = true)
    (htail : x.rest.tail = rest)
    (hphase : x.phase.isActive = true ∨ x.phase.isPaused = true ∧ w₀.isDoomed x = false)
    (hevents : ∀ name, w₀.threadName? x.scope = some name → x.WaitsAtStep →
      ∃ d, events = x.rest.reported name d)
    (hdue : w₀.Carries r a x) :
    Follows w₀ a w (w.advance r step rest events) := by
  subst htail
  exact of_modify_known hx (reservations_releaseAll ..)
    (.single (.advance events hphase hstep hevents hdue))

theorem resume : Follows w (.resume r) w (w.resume r) := by
  unfold System.resume
  split
  next => exact refl
  next x hx =>
    split
    next => exact refl
    next hdoomed =>
      -- What is doomed is not taken up, so every change here is one of a task that is spared.
      have hdoomed : w.isDoomed x = false := by simpa using hdoomed
      split
      next hphase =>
        exact of_modify_known hx (reservations_update ..) (.single (.start hphase hdoomed rfl))
      next pause hphase =>
        have hready : x.phase.isPaused = true ∧ w.isDoomed x = false :=
          ⟨by rw [hphase]; rfl, hdoomed⟩
        split
        next hdue =>
          have hcarries : w.Carries r (.resume r) x := by
            refine ⟨.inl rfl, fun pause' hphase' => ?_⟩
            obtain rfl := Phase.paused.inj (hphase.symm.trans hphase')
            exact hdue
          split
          next hrest =>
            -- The gate that it has waited for is the one of its step.
            refine advance hx (by rw [hrest]; rfl) (by rw [hrest]; rfl) (.inr hready)
              (fun _ _ hwaits => ?_) hcarries
            obtain ⟨rest', hrest'⟩ := hwaits _ hphase
            obtain ⟨rfl, -⟩ := Computation.gate.inj (hrest.symm.trans hrest')
            exact ⟨.item none, by rw [hrest]; rfl⟩
          next hrest =>
            exact advance hx (by rw [hrest]; rfl) (by rw [hrest]; rfl) (.inr hready)
              (fun _ _ _ => ⟨.item none, by rw [hrest]; rfl⟩) hcarries
          next hrest =>
            exact advance hx (by rw [hrest]; rfl) (by rw [hrest]; rfl) (.inr hready)
              (fun _ _ _ => ⟨.item none, by rw [hrest]; rfl⟩) hcarries
          next child _ =>
            refine setPhase hx (.engage _ (.inr hready) (fun c hc => .inl ?_) hcarries nofun)
            rw [hphase, Activity.engaged.inj hc]
          next => exact refl
        next => exact refl
      next => exact refl

/-- A step that reserves nothing. -/
theorem takeStep {x : Reservation V} (hx : w.reservations[r]? = some x)
    (hphase : x.phase.isActive = true)
    (hrest : ∀ access s inner rest, x.rest ≠ .await access s inner rest) :
    Follows w (.step r) w (w.takeStep r x) := by
  unfold System.takeStep
  split
  next v hfinish =>
    exact of_modify_known hx (reservations_concludeWith ..)
      (.single (.finish (e := .value v) hphase hfinish rfl))
  next p hfinish =>
    exact of_modify_known hx (reservations_concludeWith ..)
      (.single (.finish (e := .panic p) hphase hfinish rfl))
  next hgate =>
    split
    · exact advance hx (by rw [hgate]; rfl) (by rw [hgate]; rfl) (.inl hphase)
        (fun _ _ _ => ⟨.item none, by rw [hgate]; rfl⟩) (.of_isActive hphase)
    · exact setPhase hx (.pause _ hphase ⟨_, hgate⟩ nofun rfl)
  next hmark =>
    exact advance hx (by rw [hmark]; rfl) (by rw [hmark]; rfl) (.inl hphase)
      (fun _ _ _ => ⟨.item none, by rw [hmark]; rfl⟩) (.of_isActive hphase)
  next hyield => exact setPhase hx (.pause _ hphase ⟨_, hyield⟩ nofun rfl)
  next hsleep => exact setPhase hx (.pause _ hphase ⟨_, _, hsleep⟩ nofun rfl)
  next hthread =>
    -- The thread is one of the pool of the scope.
    split
    next pool hpool =>
      refine advance hx (by rw [hthread]; rfl) (by rw [hthread]; rfl) (.inl hphase)
        (fun name hname _ => ?_) (.of_isActive hphase)
      rw [threadName?, hpool] at hname
      obtain rfl := Option.some.inj hname
      exact ⟨.item none, by rw [hthread]; rfl⟩
    next hpool =>
      refine advance hx (by rw [hthread]; rfl) (by rw [hthread]; rfl) (.inl hphase)
        (fun name hname _ => ?_) (.of_isActive hphase)
      rw [threadName?, hpool] at hname
      cases hname
  next s rest hshutdown =>
    split
    · exact advance hx (by rw [hshutdown]; rfl) (by rw [hshutdown]; rfl) (.inl hphase)
        (fun _ _ _ => ⟨.item none, by rw [hshutdown]; rfl⟩) (.of_isActive hphase)
    · refine trans (of_eq (reservations_beginShutdown ..))
        (setPhase ?_
          (.engage _ (.inl hphase) nofun (.of_isActive hphase) fun _ => ⟨s, rest, hshutdown⟩))
      rw [reservations_beginShutdown, hx]
  next hdrop =>
    exact advance hx (by rw [hdrop]; rfl) (by rw [hdrop]; rfl) (.inl hphase)
      (fun _ _ _ => ⟨.item none, by rw [hdrop]; rfl⟩) (.of_isActive hphase)
  next hawait => exact absurd hawait (hrest _ _ _ _)

/-- The task takes the result of a nested reservation, or waits for it. -/
theorem engage {x : Reservation V} {child : ReservationId} {access : Access} {s : ScopeId}
    {inner rest : Computation ScopeId V} (hx : w.reservations[r]? = some x)
    (hphase : x.phase = .active (.engaged child)) (hrest : x.rest = .await access s inner rest)
    (hcan : w.canStep x = true) :
    Follows w (.step r) w (w.engage r child access s inner rest) := by
  cases hc : w.reservations[child]? with
  | none =>
    rw [System.engage, hc]
    exact refl
  | some c =>
    have hactive : x.phase.isActive = true := by rw [hphase]; rfl
    rw [engage_eq hc]
    -- The task looks at the handle, drops it if it is answered, and waits otherwise.
    extract_lets looked w'
    have hlook : Follows w (.step r) w w' :=
      of_modify_known hc rfl (.single (.handle (.look ..) (.step hx hphase)))
    have hgives : Consumer.givesUp looked.1.handle = true →
        Consumer.givesUp c.consumer.handle = true := Consumer.givesUp_of_givesUp_look
    have hc' : w'.reservations[child]? = some { c with consumer := looked.1 } := by
      unfold w' System.updateConsumer
      rw [reservations_update, List.getElem?_modify_eq, hc]
      rfl
    -- Its own reservation stays at the same step, even if it awaits itself.
    obtain ⟨x', hx', hphase', hrest'⟩ : ∃ x', w'.reservations[r]? = some x' ∧
        x'.phase = x.phase ∧ x'.rest = x.rest :=
      exists_getElem?_modify hx ⟨rfl, rfl⟩ child fun _ h => h
    split
    next d hd =>
      have hdrop : Follows w (.step r) w' (w'.dropHandle child) := by
        refine dropHandle (.step hx hphase) fun y hy hgives' =>
          .step hc hx hphase (Consumer.isReady_of_look hd) (hgives ?_)
        obtain rfl := Option.some.inj (hc'.symm.trans hy)
        exact hgives'
      obtain ⟨x'', hx'', hphase'', hrest''⟩ :=
        exists_getElem?_dropHandle hx' (by rw [hphase', hphase]; nofun) child
      have hawait : x''.rest = .await access s inner rest := by rw [hrest'', hrest', hrest]
      have hactive'' : x''.phase.isActive = true := by rw [hphase'', hphase', hactive]
      refine (hlook.trans hdrop).trans (advance hx'' ?_ ?_ (.inl hactive'')
        (fun _ _ _ => ⟨d, by rw [hawait]; rfl⟩) (.of_isActive hactive''))
      · rw [hawait]
        rfl
      · rw [hawait]
        rfl
    next hd =>
      split
      next => exact hlook
      next hblocks =>
        -- It takes a step only if the launch has returned.
        have hlaunched : c.phase.isLaunched = true := by
          simp only [canStep, hphase, hrest, hc, Option.any_some, Reservation.isSettled,
            Bool.and_eq_true] at hcan
          exact hcan.1.1.1
        refine hlook.trans (setPhase hx' (.pause _ ?_ trivial (fun c' hc'' => ?_) rfl))
        · rw [hphase', hactive]
        · obtain rfl := Pause.inner.inj hc''
          refine ⟨hphase'.trans hphase, ⟨access, s, inner, rest, hrest'.trans hrest, ?_⟩, c, hc,
            hlaunched⟩
          simpa using hblocks

/-- A step after the first look at it. -/
theorem step {x : Reservation V} (hx : w.reservations[r]? = some x)
    (hrest : x.phase = .active .step → ∀ access s inner rest, x.rest ≠ .await access s inner rest) :
    Follows w (.step r) w (w.step r) := by
  unfold System.step
  rw [hx]
  dsimp only
  split
  next hcan =>
    split
    next hphase => exact takeStep hx (by rw [hphase]; rfl) (hrest hphase)
    next s rest hphase hshutdown =>
      have hactive : x.phase.isActive = true := by rw [hphase]; rfl
      -- The scope is dealt with first, which leaves the reservations alone.
      refine trans (of_eq (reservations_finishShutdown ..))
        (advance (x := x) ?_ ?_ ?_ (.inl hactive)
          (fun _ _ _ => ⟨.item none, by rw [hshutdown]; rfl⟩) (.of_isActive hactive))
      · rw [reservations_finishShutdown, hx]
      · rw [hshutdown]
        rfl
      · rw [hshutdown]
        rfl
    next hphase hawait => exact engage hx hphase hawait hcan
    next => exact refl
  next => exact refl

theorem dropTask : Follows w (.dropTask r) w (w.dropTask r) := by
  unfold System.dropTask
  split
  next => exact refl
  next x hx =>
    split
    next hdoomed =>
      split
      next hphase =>
        exact of_modify_known hx (reservations_concludeWith ..)
          (.single (.drop rfl (by rw [hphase]; rfl) hdoomed))
      next child hphase =>
        have hdrop : Follows w (.dropTask r) w (w.dropHandle child) :=
          dropHandle (.dropTask hx hphase hdoomed) fun _ hc hgives =>
            .dropTask hc hx hphase hdoomed hgives
        -- The handle that is dropped may be its own, which does not save it.
        obtain ⟨x', hx', hphase', hdoomed'⟩ : ∃ x', (w.dropHandle child).reservations[r]? =
            some x' ∧ x'.phase = x.phase ∧ w.isDoomed x' = true := by
          rw [reservations_dropHandle]
          refine exists_getElem?_modify hx ⟨rfl, hdoomed⟩ child fun y hy => ?_
          have hne : y.phase ≠ .captured := by simp [hy.1, hphase]
          exact ⟨(Reservation.dropHandle_of_ne_captured hne).1.trans hy.1,
            isDoomed_dropHandle hy.2⟩
        refine hdrop.trans (of_modify_known hx' (reservations_concludeWith ..)
          (.single (.drop rfl ?_ hdoomed')))
        rw [hphase', hphase]
        rfl
      next hphase =>
        exact of_modify_known hx (reservations_concludeWith ..)
          (.single (.drop rfl (by rw [hphase]; rfl) hdoomed))
      next => exact refl
    next => exact refl

/-! ## Handles -/

/-- A handle that is known is replaced. -/
theorem setConsumer {x : Reservation V} {c : Consumer V} (hx : w.reservations[r]? = some x)
    (hc : x.consumer.Handling c) (hby : w₀.Handles r a) :
    Follows w₀ a w (w.updateConsumer r fun _ => c) :=
  of_modify_known hx rfl (.single (.handle hc hby))

theorem reshape (shape : Shape) : Follows w (.reshape r shape) w (w.reshape r shape) :=
  onOffered fun _ hx hoffered =>
    updateConsumer (fun _ _ => .reshape shape) (.caller rfl hx hoffered)

theorem use (u : Use) : Follows w (.use r u) w (w.use r u) := by
  refine onOffered fun x hx hoffered => ?_
  have hbegin : Follows w (.use r u) w
      (w.updateConsumer r fun _ => (x.consumer.begin u).consumer) :=
    setConsumer hx (.begin u) (.caller rfl hx hoffered)
  dsimp only
  split
  · exact hbegin.trans (startLaunch u)
  · exact hbegin

theorem poll (waker : Waker) : Follows w (.poll r waker) w (w.poll r waker) :=
  onOffered fun _ hx hoffered => setConsumer hx (.poll waker) (.caller rfl hx hoffered)

theorem fetch : Follows w (.fetch r) w (w.fetch r) :=
  onOffered fun _ hx hoffered => setConsumer hx .fetch (.caller rfl hx hoffered)

theorem expire : Follows w (.expire r) w (w.expire r) := by
  refine onOffered fun x hx hoffered => ?_
  have hlook : Follows w (.expire r) w (w.updateConsumer r fun _ => x.consumer.expire.1) :=
    setConsumer hx .expire (.caller rfl hx hoffered)
  dsimp only
  split
  next hexpiry => exact hlook.trans (abort fun _ _ => .expire hx hoffered hexpiry)
  next => exact hlook

theorem complete : Follows w (.complete r) w (w.complete r) :=
  onOffered fun _ hx hoffered =>
    updateConsumer (fun _ _ => .complete) (.caller rfl hx hoffered)

theorem cancel : Follows w (.cancel r) w (w.cancel r) := by
  refine onOffered fun x hx hoffered => ?_
  split
  next hcancel => exact abort fun _ _ => .cancel hx hoffered hcancel
  next => exact refl

theorem drop : Follows w (.drop r) w (w.drop r) := by
  refine onOffered fun x hx hoffered => dropHandle (.caller rfl hx hoffered) fun y hy hgives => ?_
  obtain rfl := Option.some.inj (hx.symm.trans hy)
  exact .drop hx hoffered hgives

theorem runDirectly : Follows w (.runDirectly r) w (w.runDirectly r) := by
  refine onOffered fun x hx hoffered => ?_
  split
  next =>
    exact trans (updateConsumer (fun _ _ => .wait) (.caller rfl hx hoffered))
      (spawnDirectly fun _ => rfl)
  next => exact refl

end Follows

/-! ## Actions -/

/-- The action `a` leads from the system `w` to `w'`. -/
structure Leads (w : System V) (a : Action V) (w' : System V) : Prop where
  /-- Every reservation goes through a sequence of changes. -/
  exists_changes : ∀ (r : ReservationId) (x : Reservation V), w.reservations[r]? = some x →
    ∃ x', w'.reservations[r]? = some x' ∧ w.Changes r a x x'
  /-- A reservation that is added is described by `New`. -/
  new : ∀ (r : ReservationId) (x' : Reservation V), w.reservations[r]? = none →
    w'.reservations[r]? = some x' → w.New a x'

/-- Nothing is added. -/
theorem Follows.leads (h : Follows w a w w') : Leads w a w' where
  exists_changes := h.exists_changes
  new r x' hr hx' := by
    have hlt := (List.getElem?_eq_some_iff.mp hx').1
    rw [h.length_eq] at hlt
    exact absurd (List.getElem?_eq_none_iff.mp hr) (Nat.not_le_of_lt hlt)

/-- One reservation is added, and apart from that there are changes. -/
theorem Follows.leads_of_append {w₁ : System V} {y : Reservation V} (h : Follows w a w w₁)
    (happend : w'.reservations = w₁.reservations ++ [y]) (hnew : w.New a y) : Leads w a w' where
  exists_changes r x hx := by
    obtain ⟨x', hx', hchanges⟩ := h.exists_changes r x hx
    have hlt := (List.getElem?_eq_some_iff.mp hx').1
    exact ⟨x', by rw [happend, List.getElem?_append_left hlt, hx'], hchanges⟩
  new r x' hr hx' := by
    have hle := List.getElem?_eq_none_iff.mp hr
    rw [← h.length_eq] at hle
    rw [happend, List.getElem?_append_right hle] at hx'
    obtain rfl := List.mem_singleton.mp (List.mem_of_getElem? hx')
    exact hnew

theorem leads_step (w : System V) (r : ReservationId) : Leads w (.step r) (w.step r) := by
  by_cases h : ∃ x access s inner rest, w.reservations[r]? = some x ∧
      x.phase = .active .step ∧ x.rest = .await access s inner rest
  · obtain ⟨x, access, s, inner, rest, hx, hphase, hrest⟩ := h
    have hcan : w.canStep x = true := by simp [canStep, hphase]
    have hstep : w.step r = w.takeStep r x := by simp [step, hx, hcan, hphase]
    -- Apart from the reservation that it adds, the task only turns to it.
    have hactive : x.phase.isActive = true := by rw [hphase]; rfl
    have hengage : Follows w (.step r) w
        (w.setPhase r (.active (.engaged w.reservations.length))) :=
      .setPhase hx (.engage _ (.inl hactive) (fun c hc => .inr ⟨rfl, hx, hphase,
        ⟨access, s, inner, rest, hrest⟩, (Activity.engaged.inj hc).symm⟩)
        (.of_isActive hactive) nofun)
    rw [hstep]
    exact hengage.leads_of_append (reservations_takeStep_await hrest hx) (.await hx hphase hrest)
  · cases hx : w.reservations[r]? with
    | none =>
      have hstep : w.step r = w := by simp [step, hx]
      rw [hstep]
      exact Follows.refl.leads
    | some x =>
      refine (Follows.step hx fun hphase access s inner rest hrest => ?_).leads
      exact h ⟨x, access, s, inner, rest, hx, hphase, hrest⟩

theorem leads_reserveFor (w : System V) (s : ScopeId) (name : Option String) (label : String)
    (computation : Computation ScopeId V) :
    Leads w (.reserve s name label computation) (w.reserveFor s name label computation) := by
  unfold reserveFor
  split
  next hheld => exact Follows.refl.leads_of_append (reservations_reserve ..) (.reserve hheld)
  next => exact Follows.refl.leads

/-- Every action leads on by changes. -/
theorem leads_act (w : System V) (a : Action V) : Leads w a (w.act a) := by
  cases a with
  | build settings =>
    rw [act]
    split
    next hbuild =>
      obtain ⟨pool, -, -, -, rfl⟩ := eq_of_build w hbuild
      exact Follows.leads (.of_eq rfl)
    next => exact Follows.refl.leads
  | borrow name p =>
    rw [act]
    split
    · exact Follows.leads (.of_eq rfl)
    · exact Follows.refl.leads
  | share s => exact (Follows.of_eq (reservations_share ..)).leads
  | unshare s => exact (Follows.of_eq (reservations_unshare ..)).leads
  | beginShutdown s closing =>
    rw [act]
    split
    · exact (Follows.of_eq (reservations_beginShutdown ..)).leads
    · exact Follows.refl.leads
  | finishShutdown s => exact (Follows.of_eq (reservations_finishShutdown ..)).leads
  | reserve s name label computation => exact leads_reserveFor ..
  | reshape r shape => exact (Follows.reshape shape).leads
  | use r u => exact (Follows.use u).leads
  | poll r waker => exact (Follows.poll waker).leads
  | fetch r => exact Follows.fetch.leads
  | expire r => exact Follows.expire.leads
  | complete r => exact Follows.complete.leads
  | cancel r => exact Follows.cancel.leads
  | drop r => exact Follows.drop.leads
  | runDirectly r => exact Follows.runDirectly.leads
  | testClosed r => exact Follows.testClosed.leads
  | spawn r => exact (Follows.spawn (fun _ => rfl) (.inl rfl)).leads
  | letGo r => exact Follows.letGo.leads
  | attach r => exact Follows.attach.leads
  | resume r => exact Follows.resume.leads
  | step r => exact leads_step ..
  | dropTask r => exact Follows.dropTask.leads
  | openGate g => exact (Follows.of_eq (reservations_openGate ..)).leads
  | pass t => exact Follows.leads (.of_eq rfl)
  | addPool pool => exact Follows.leads (.of_eq rfl)
  | stopPool p stop =>
    rw [act]
    split
    · exact Follows.refl.leads
    · exact (Follows.of_eq (reservations_stopPool ..)).leads

/-- What an action does to a reservation. -/
theorem exists_changes_act {x : Reservation V} (hx : w.reservations[r]? = some x)
    (a : Action V) : ∃ x', (w.act a).reservations[r]? = some x' ∧ w.Changes r a x x' :=
  (leads_act w a).exists_changes r x hx

/-- What a reservation is after an action, it has become by changes. -/
theorem changes_of_act {x x' : Reservation V} (hx : w.reservations[r]? = some x)
    (hx' : (w.act a).reservations[r]? = some x') : w.Changes r a x x' := by
  obtain ⟨y, hy, hchanges⟩ := exists_changes_act hx a
  obtain rfl := Option.some.inj (hx'.symm.trans hy)
  exact hchanges

/-- A reservation that is there after an action was added by it, or was there before. -/
theorem new_or_changes_of_act {x' : Reservation V} (hx' : (w.act a).reservations[r]? = some x') :
    w.New a x' ∨ ∃ x, w.reservations[r]? = some x ∧ w.Changes r a x x' := by
  cases hx : w.reservations[r]? with
  | none => exact .inl ((leads_act w a).new r x' hx hx')
  | some x => exact .inr ⟨x, rfl, changes_of_act hx hx'⟩

end Deferral.System
