import Deferral.Proofs.System.Custody
import Deferral.Proofs.System.Laziness

/-!
# Systems that differ in one consumer

What the caller of a reservation does with its handle shows in the consumer of that reservation, and
nowhere else as long as it neither launches the computation nor gives it up. So two systems that are
alike but for that consumer stay alike, whatever else happens in them.

Main statements:
* `Alike.act`: an action that is not about the handle leaves two systems alike.
* `Alike.run`: so does a run of such actions.
-/

namespace Deferral.System

variable {V : Type} {r q : ReservationId} {w w' : System V}

/-- The systems agree in everything but the consumer of the reservation `r`. -/
def Alike (r : ReservationId) (w w' : System V) : Prop :=
  ∃ c, w' = w.updateConsumer r fun _ => c

/-- No computation waits for the result of the reservation `r`. -/
def Unawaited (r : ReservationId) (w : System V) : Prop :=
  ∀ (q : ReservationId) (x : Reservation V), w.reservations[q]? = some x →
    x.phase.awaited? ≠ some r

/-- An operation that neither looks at reservations nor changes them. -/
def Aloof (f : System V → System V) : Prop :=
  ∀ w l, f { w with reservations := l } = { f w with reservations := l }

/-- A change of a reservation that does not depend on its consumer, except in what becomes of the
consumer. -/
def Heedless (f : Reservation V → Reservation V) : Prop :=
  ∀ x c, ∃ c', f { x with consumer := c } = { f x with consumer := c' }

namespace Alike

theorem refl (r : ReservationId) (w : System V) : Alike r w w := by
  rcases hx : w.reservations[r]? with _ | x
  · refine ⟨{}, ?_⟩
    rw [updateConsumer, update, List.modify_eq_self (List.getElem?_eq_none_iff.mp hx)]
  · exact ⟨x.consumer, (update_eq_self hx rfl).symm⟩

theorem trans {w'' : System V} (h : Alike r w w') (h' : Alike r w' w'') : Alike r w w'' := by
  obtain ⟨c, rfl⟩ := h
  obtain ⟨c', rfl⟩ := h'
  exact ⟨c', update_update ..⟩

theorem symm (h : Alike r w w') : Alike r w' w := by
  obtain ⟨c, rfl⟩ := h
  obtain ⟨c', hc'⟩ := refl r w
  refine ⟨c', ?_⟩
  rw [updateConsumer, updateConsumer, update_update]
  exact hc'

/-- All other reservations are the same. -/
theorem getElem?_ne (h : Alike r w w') (hne : q ≠ r) :
    w'.reservations[q]? = w.reservations[q]? := by
  obtain ⟨c, rfl⟩ := h
  exact List.getElem?_modify_ne _ _ hne.symm

/-- A reservation that is not there is there in neither. -/
theorem getElem?_eq_none (h : Alike r w w') (hx : w.reservations[q]? = none) :
    w'.reservations[q]? = none := by
  obtain ⟨c, rfl⟩ := h
  rw [updateConsumer, reservations_update, List.getElem?_modify, hx]
  rfl

/-- A reservation is the same but for its consumer. -/
theorem exists_getElem? {x : Reservation V} (h : Alike r w w') (hx : w.reservations[q]? = some x) :
    ∃ c, w'.reservations[q]? = some { x with consumer := c } ∧ (q ≠ r → c = x.consumer) := by
  by_cases hq : q = r
  · subst hq
    obtain ⟨c, rfl⟩ := h
    refine ⟨c, ?_, absurd rfl⟩
    rw [updateConsumer, reservations_update, List.getElem?_modify_eq, hx]
    rfl
  · exact ⟨x.consumer, (h.getElem?_ne hq).trans hx, fun _ => rfl⟩

/-- An operation that ignores reservations leaves systems alike. -/
theorem aloof {f : System V → System V} (h : Alike r w w') (hf : Aloof f) :
    Alike r (f w) (f w') := by
  obtain ⟨c, rfl⟩ := h
  refine ⟨c, ?_⟩
  have hsame : (f w).reservations = w.reservations := by
    rw [show f w = { f w with reservations := w.reservations } from hf w w.reservations]
  have hupdated := hf w (w.reservations.modify r fun x => { x with consumer := c })
  unfold updateConsumer System.update
  rw [hupdated, hsame]

/-- A change of another reservation leaves systems alike. -/
theorem update_ne (h : Alike r w w') (hne : q ≠ r) (f : Reservation V → Reservation V) :
    Alike r (w.update q f) (w'.update q f) := by
  obtain ⟨c, rfl⟩ := h
  refine ⟨c, ?_⟩
  unfold updateConsumer System.update
  rw [List.modify_modify_ne _ _ _ hne.symm]

/-- A change of one reservation that does not depend on the consumer leaves systems alike. -/
theorem update (h : Alike r w w') {f : Reservation V → Reservation V} (hf : Heedless f)
    (q : ReservationId) : Alike r (w.update q f) (w'.update q f) := by
  by_cases hq : q = r
  · subst hq
    obtain ⟨c, rfl⟩ := h
    rcases hx : w.reservations[q]? with _ | x
    · have hlength := List.getElem?_eq_none_iff.mp hx
      refine ⟨c, ?_⟩
      unfold updateConsumer System.update
      simp only [List.modify_eq_self, hlength]
    · obtain ⟨c', hc'⟩ := hf x c
      refine ⟨c', ?_⟩
      rw [updateConsumer, updateConsumer, update_update, update_update]
      exact update_congr hx hc'
  · exact h.update_ne hq f

/-! ## Operations on scopes and pools -/

end Alike

theorem aloof_retain (s : ScopeId) : Aloof (retain (V := V) s) := fun _ _ => rfl

theorem aloof_takePool (s : ScopeId) (stop : Stop) : Aloof (takePool (V := V) s stop) := by
  intro w l
  unfold takePool
  dsimp only
  split
  · split <;> rfl
  · rfl

theorem aloof_release (s : ScopeId) : Aloof (release (V := V) s) := by
  intro w l
  have hpool := aloof_takePool (V := V) s .background
  rcases hscope : w.scopes[s]? with _ | scope
  · simp [release, updateScope, hscope]
  · simp only [release, updateScope, List.getElem?_modify_eq, hscope, Option.map_eq_map,
      Option.map_some]
    split
    · exact hpool { w with scopes := _ } l
    · rfl

theorem Aloof.comp {f g : System V → System V} (hf : Aloof f) (hg : Aloof g) :
    Aloof fun w => f (g w) := by
  intro w l
  show f (g { w with reservations := l }) = _
  rw [hg, hf]

theorem aloof_foldl {f : ScopeId → System V → System V} (hf : ∀ s, Aloof (f s))
    (ss : List ScopeId) : Aloof fun w => ss.foldl (fun w s => f s w) w := by
  induction ss with
  | nil => exact fun _ _ => rfl
  | cons s ss ih => exact ih.comp (hf s)

theorem aloof_releaseAll (ss : List ScopeId) : Aloof (releaseAll (V := V) ss) :=
  aloof_foldl aloof_release ss

theorem aloof_retainAll (ss : List ScopeId) : Aloof (retainAll (V := V) ss) :=
  aloof_foldl aloof_retain ss

theorem aloof_beginShutdown (s : ScopeId) (closing : Closing) :
    Aloof (beginShutdown (V := V) s closing) := by
  intro w l
  unfold beginShutdown
  dsimp only
  split
  · split <;> rfl
  · rfl

theorem aloof_finishShutdown (s : ScopeId) : Aloof (finishShutdown (V := V) s) := by
  intro w l
  rcases hclosing : (w.scopes[s]?).bind Scope.closing with _ | closing
  · simp only [finishShutdown, hclosing]
  · simp only [finishShutdown, hclosing]
    have hupdate : Aloof (updateScope (V := V) s fun x => { x with closing := none }) :=
      fun _ _ => rfl
    exact (aloof_release s).comp (hupdate.comp (aloof_takePool s closing.stop)) w l

theorem aloof_share (s : ScopeId) : Aloof (share (V := V) s) := by
  intro w l
  unfold share
  split <;> rfl

theorem aloof_unshare (s : ScopeId) : Aloof (unshare (V := V) s) := by
  intro w l
  unfold unshare
  dsimp only
  split
  · exact aloof_release s { w with held := w.held.erase s } l
  · rfl

theorem aloof_openGate (g : String) : Aloof (openGate (V := V) g) := by
  intro w l
  unfold openGate
  split <;> rfl

namespace Alike

/-! ## What systems that are alike agree in -/

theorem poolAlive_eq (h : Alike r w w') (s : ScopeId) : w'.poolAlive s = w.poolAlive s := by
  obtain ⟨c, rfl⟩ := h
  rfl

theorem isClosed_eq (h : Alike r w w') (s : ScopeId) : w'.isClosed s = w.isClosed s := by
  obtain ⟨c, rfl⟩ := h
  rfl

theorem isDoomed_eq (h : Alike r w w') (x : Reservation V) (c : Consumer V) :
    w'.isDoomed { x with consumer := c } = w.isDoomed x := by
  unfold isDoomed
  rw [h.poolAlive_eq]

/-- What a task waits for has come in both, unless it waits for the one reservation. -/
theorem isDue_eq (h : Alike r w w') {pause : Pause} (hne : pause ≠ .inner r) :
    w'.isDue pause = w.isDue pause := by
  cases pause with
  | inner child =>
    have hchild : child ≠ r := fun heq => hne (by rw [heq])
    rw [isDue, isDue, h.getElem?_ne hchild]
  | gate | turn | «until» =>
    obtain ⟨c, rfl⟩ := h
    rfl

/-- A task may go on in both, unless it waits for the one reservation. -/
theorem canStep_eq (h : Alike r w w') {x : Reservation V} (hfree : x.phase.awaited? ≠ some r)
    (c : Consumer V) : w'.canStep { x with consumer := c } = w.canStep x := by
  unfold canStep
  cases hphase : x.phase with
  | active activity =>
    cases activity with
    | engaged child =>
      have hchild : child ≠ r := fun heq => hfree (by rw [hphase, heq]; rfl)
      cases hrest : x.rest with
      | await access s inner rest =>
        dsimp only
        rw [h.getElem?_ne hchild]
      | _ => rfl
    | step | closing => rfl
  | _ => rfl

/-! ## Launches -/

theorem conclude (h : Alike r w w') (q : ReservationId) (phase : Phase) (event : Event V) :
    Alike r (w.conclude q phase event) (w'.conclude q phase event) := by
  unfold System.conclude
  rcases hx : w.reservations[q]? with _ | x
  · rw [h.getElem?_eq_none hx]
    exact h
  · obtain ⟨c, hx', -⟩ := h.exists_getElem? hx
    rw [hx']
    exact (h.update (fun _ c => ⟨c, rfl⟩) q).aloof (aloof_releaseAll _)

theorem concludeWith (h : Alike r w w') (q : ReservationId) (phase : Phase) (event : Event V)
    (o : Outcome V) :
    Alike r (w.concludeWith q phase event o) (w'.concludeWith q phase event o) :=
  (h.conclude q phase event).update (fun _ c => ⟨c.publish o, rfl⟩) q

theorem letGo (h : Alike r w w') (q : ReservationId) : Alike r (w.letGo q) (w'.letGo q) := by
  unfold System.letGo
  rcases hx : w.reservations[q]? with _ | x
  · rw [h.getElem?_eq_none hx]
    exact h
  · obtain ⟨c, hx', -⟩ := h.exists_getElem? hx
    rw [hx']
    dsimp only
    split
    · exact (h.update (fun _ c => ⟨c, rfl⟩) q).aloof (aloof_release _)
    · exact h

theorem startLaunch (h : Alike r w w') (q : ReservationId) :
    Alike r (w.startLaunch q) (w'.startLaunch q) := by
  refine h.update (fun x c => ⟨c, ?_⟩) q
  dsimp only
  split <;> rfl

theorem testClosed (h : Alike r w w') (q : ReservationId) :
    Alike r (w.testClosed q) (w'.testClosed q) := by
  unfold System.testClosed
  rcases hx : w.reservations[q]? with _ | x
  · rw [h.getElem?_eq_none hx]
    exact h
  · obtain ⟨c, hx', -⟩ := h.exists_getElem? hx
    rw [hx']
    dsimp only
    rw [h.isClosed_eq]
    split
    · split
      · exact h.concludeWith ..
      · exact h.update (fun _ c => ⟨c, rfl⟩) q
    · exact h

theorem spawn (h : Alike r w w') (q : ReservationId) : Alike r (w.spawn q) (w'.spawn q) := by
  unfold System.spawn
  rcases hx : w.reservations[q]? with _ | x
  · rw [h.getElem?_eq_none hx]
    exact h
  · obtain ⟨c, hx', -⟩ := h.exists_getElem? hx
    rw [hx']
    dsimp only
    rw [h.poolAlive_eq]
    split
    · split
      · exact h.update (fun _ c => ⟨c, rfl⟩) q
      · exact (h.update (fun _ c => ⟨c, rfl⟩) q).concludeWith ..
    · exact h

theorem attach (h : Alike r w w') (q : ReservationId) : Alike r (w.attach q) (w'.attach q) := by
  unfold System.attach
  rcases hx : w.reservations[q]? with _ | x
  · rw [h.getElem?_eq_none hx]
    exact h
  · obtain ⟨c, hx', -⟩ := h.exists_getElem? hx
    rw [hx']
    dsimp only
    split
    · exact h.update (fun x c => ⟨c.attach, rfl⟩) q
    · exact h

theorem spawnDirectly (h : Alike r w w') (q : ReservationId) :
    Alike r (w.spawnDirectly q) (w'.spawnDirectly q) := by
  refine Alike.spawn (h.update (fun x c => ⟨c, ?_⟩) q) q
  dsimp only
  split <;> rfl

theorem reserve (h : Alike r w w') (s : ScopeId) (name : Option String) (label : String)
    (parent : Option ReservationId) (computation : Computation ScopeId V) (c : Consumer V) :
    Alike r (w.reserve s name label parent computation c).2
      (w'.reserve s name label parent computation c).2 := by
  obtain ⟨c', rfl⟩ := h
  by_cases hlt : r < w.reservations.length
  · refine ⟨c', ?_⟩
    unfold System.reserve updateConsumer System.update
    dsimp only
    rw [aloof_retainAll, modify_append_left hlt]
  · have hself : w.updateConsumer r (fun _ => c') = w := by
      unfold updateConsumer System.update
      rw [List.modify_eq_self (Nat.le_of_not_lt hlt)]
    rw [hself]
    exact .refl r _

theorem abort (h : Alike r w w') (q : ReservationId) : Alike r (w.abort q) (w'.abort q) := by
  refine h.update (fun x c => ⟨c, ?_⟩) q
  dsimp only
  split <;> rfl

theorem discard (h : Alike r w w') (q : ReservationId) : Alike r (w.discard q) (w'.discard q) := by
  unfold System.discard
  rcases hx : w.reservations[q]? with _ | x
  · rw [h.getElem?_eq_none hx]
    exact h
  · obtain ⟨c, hx', -⟩ := h.exists_getElem? hx
    rw [hx']
    dsimp only
    split
    · exact (h.conclude ..).letGo q
    · exact h

/-- Dropping the handle of another reservation looks at the consumer of that one. -/
theorem dropHandle (h : Alike r w w') (hne : q ≠ r) :
    Alike r (w.dropHandle q) (w'.dropHandle q) := by
  unfold System.dropHandle
  rw [h.getElem?_ne hne]
  have hdrop : Alike r (w.updateConsumer q Consumer.drop) (w'.updateConsumer q Consumer.drop) :=
    h.update_ne hne _
  split
  next x hx =>
    split
    · exact hdrop.abort q
    · split
      · exact hdrop.discard q
      · exact hdrop
  next => exact h

/-! ## Tasks -/

theorem setPhase (h : Alike r w w') (q : ReservationId) (phase : Phase) :
    Alike r (w.setPhase q phase) (w'.setPhase q phase) :=
  h.update (fun _ c => ⟨c, rfl⟩) q

theorem advance (h : Alike r w w') (q : ReservationId) (step : List ScopeId)
    (rest : Computation ScopeId V) (events : List (Event V)) :
    Alike r (w.advance q step rest events) (w'.advance q step rest events) :=
  (h.update (fun _ c => ⟨c, rfl⟩) q).aloof (aloof_releaseAll _)

theorem resume (h : Alike r w w') (q : ReservationId) (hfree : w.Unawaited r) :
    Alike r (w.resume q) (w'.resume q) := by
  unfold System.resume
  rcases hx : w.reservations[q]? with _ | x
  · rw [h.getElem?_eq_none hx]
    exact h
  · obtain ⟨c, hx', -⟩ := h.exists_getElem? hx
    rw [hx']
    dsimp only
    -- What decides is alike: whether the task is doomed, and whether what it waits for is there.
    rw [h.isDoomed_eq]
    split
    · exact h
    · cases hphase : x.phase with
      | queued => exact h.update (fun _ c => ⟨c, rfl⟩) q
      | paused pause =>
        dsimp only
        rw [h.isDue_eq fun heq => hfree q x hx (by rw [hphase, heq]; rfl)]
        split
        · split
          · exact h.advance ..
          · exact h.advance ..
          · exact h.advance ..
          · exact h.setPhase ..
          · exact h
        · exact h
      | _ => exact h

theorem dropTask (h : Alike r w w') (q : ReservationId) (hfree : w.Unawaited r) :
    Alike r (w.dropTask q) (w'.dropTask q) := by
  unfold System.dropTask
  rcases hx : w.reservations[q]? with _ | x
  · rw [h.getElem?_eq_none hx]
    exact h
  · obtain ⟨c, hx', -⟩ := h.exists_getElem? hx
    rw [hx']
    dsimp only
    rw [h.isDoomed_eq]
    split
    · cases hphase : x.phase with
      | queued => exact h.concludeWith ..
      | paused pause =>
        cases pause with
        | inner child =>
          have hchild : child ≠ r := fun heq => hfree q x hx (by rw [hphase, heq]; rfl)
          exact (h.dropHandle hchild).concludeWith ..
        | gate | turn | «until» => exact h.concludeWith ..
      | _ => exact h
    · exact h

theorem takeStep (h : Alike r w w') (q : ReservationId) (x : Reservation V) (c : Consumer V) :
    Alike r (w.takeStep q x) (w'.takeStep q { x with consumer := c }) := by
  -- All that a step reads is alike: the gates, the clock, the scopes, the pools.
  have hgates : w'.gates = w.gates := by obtain ⟨c, rfl⟩ := h; rfl
  have hclock : w'.clock = w.clock := by obtain ⟨c, rfl⟩ := h; rfl
  have hscopes : w'.scopes = w.scopes := by obtain ⟨c, rfl⟩ := h; rfl
  have hpools : w'.pools = w.pools := by obtain ⟨c, rfl⟩ := h; rfl
  have hlength : w'.reservations.length = w.reservations.length := by
    obtain ⟨c, rfl⟩ := h
    exact List.length_modify ..
  have hlabel : innerLabel { x with consumer := c } = innerLabel x := rfl
  unfold System.takeStep
  rw [hlabel]
  cases hrest : x.rest with
  | finish ending => cases ending <;> exact h.concludeWith ..
  | gate g rest =>
    dsimp only
    rw [hgates]
    split
    · exact h.advance ..
    · exact h.setPhase ..
  | mark v rest => exact h.advance ..
  | yield rest => exact h.setPhase ..
  | sleep d rest =>
    dsimp only
    rw [hclock]
    exact h.setPhase ..
  | thread rest =>
    dsimp only
    rw [hscopes, hpools]
    split
    · exact h.advance ..
    · exact h.advance ..
  | shutdown s rest =>
    dsimp only
    rw [h.isClosed_eq, hscopes]
    split
    · exact h.advance ..
    · exact (h.aloof (aloof_beginShutdown s _)).setPhase ..
  | dropScope s rest => exact h.advance ..
  | await access s inner rest =>
    -- The nested reservation has the same id in both systems.
    have hreserve := h.reserve s none (innerLabel x) (some q) inner access.consumer
    have hchild : (w'.reserve s none (innerLabel x) (some q) inner access.consumer).1 =
        (w.reserve s none (innerLabel x) (some q) inner access.consumer).1 := hlength
    dsimp only
    rw [hchild]
    exact (hreserve.startLaunch _).setPhase ..

/-- Looking for the result of a nested reservation looks at the consumer of that one. -/
theorem engage (h : Alike r w w') (q : ReservationId) {child : ReservationId} (hne : child ≠ r)
    (access : Access) (s : ScopeId) (inner rest : Computation ScopeId V) :
    Alike r (w.engage q child access s inner rest) (w'.engage q child access s inner rest) := by
  unfold System.engage
  rw [h.getElem?_ne hne]
  split
  next => exact h
  next z hz =>
    dsimp only
    have hlook (c : Consumer V) := h.update_ne hne fun x => { x with consumer := c }
    split
    · exact ((hlook _).dropHandle hne).advance ..
    · split
      · exact hlook _
      · exact (hlook _).setPhase ..

theorem step (h : Alike r w w') (q : ReservationId) (hfree : w.Unawaited r) :
    Alike r (w.step q) (w'.step q) := by
  unfold System.step
  rcases hx : w.reservations[q]? with _ | x
  · rw [h.getElem?_eq_none hx]
    exact h
  · obtain ⟨c, hx', -⟩ := h.exists_getElem? hx
    rw [hx']
    dsimp only
    rw [h.canStep_eq (hfree q x hx)]
    split
    · cases hphase : x.phase with
      | active activity =>
        cases activity with
        | step => exact h.takeStep q x c
        | closing =>
          cases hrest : x.rest with
          | shutdown s rest => exact (h.aloof (aloof_finishShutdown s)).advance ..
          | _ => exact h
        | engaged child =>
          have hchild : child ≠ r := fun heq => hfree q x hx (by rw [hphase, heq]; rfl)
          cases hrest : x.rest with
          | await access s inner rest => exact h.engage q hchild access s inner rest
          | _ => exact h
      | _ => exact h
    · exact h

/-! ## Actions -/

/-- An operation on the handle of another reservation looks at the consumer of that one. -/
theorem operation (h : Alike r w w') {a : Action V} (ha : a.handle? = some q) (hne : q ≠ r) :
    Alike r (w.act a) (w'.act a) := by
  have hsame := h.getElem?_ne hne
  by_cases hoffered : ∃ x, w.reservations[q]? = some x ∧ isOffered x = true
  · obtain ⟨x, hx, hoffered⟩ := hoffered
    have hx' := hsame.trans hx
    -- All operations but two only update the reservation of the handle.
    by_cases hdrop : a = .drop q
    · subst hdrop
      show Alike r (w.drop q) (w'.drop q)
      rw [System.drop, System.drop, onOffered_of_offered hx hoffered,
        onOffered_of_offered hx' hoffered]
      exact h.dropHandle hne
    · by_cases hdirect : a = .runDirectly q
      · subst hdirect
        show Alike r (w.runDirectly q) (w'.runDirectly q)
        rw [System.runDirectly, System.runDirectly, onOffered_of_offered hx hoffered,
          onOffered_of_offered hx' hoffered]
        split
        · exact (h.update_ne hne _).spawnDirectly q
        · exact h
      · rw [act_eq_update ha hdrop hdirect hx hoffered, act_eq_update ha hdrop hdirect hx' hoffered]
        exact h.update_ne hne _
  · have hnot : ∀ x, w.reservations[q]? = some x → isOffered x = false :=
      fun x hx => Bool.eq_false_iff.mpr fun hoffered' => hoffered ⟨x, hx, hoffered'⟩
    rw [act_of_not_offered ha hnot, act_of_not_offered ha fun x hx => hnot x (hsame ▸ hx)]
    exact h

/-- An action that is not about the handle of the reservation leaves systems alike, if no
computation waits for the reservation. -/
theorem act (h : Alike r w w') {a : Action V} (ha : a.handle? ≠ some r)
    (hfree : w.Unawaited r) :
    Alike r (w.act a) (w'.act a) := by
  -- An operation is on the handle of another reservation; every other action reads
  -- only what is alike.
  cases hhandle : a.handle? with
  | some q => exact h.operation hhandle fun hq => ha (hq ▸ hhandle)
  | none =>
    have hheld : w'.held = w.held := by obtain ⟨c, rfl⟩ := h; rfl
    have hpools : w'.pools = w.pools := by obtain ⟨c, rfl⟩ := h; rfl
    cases a with
    | build settings =>
      have hbuild : Aloof fun w : System V => w.act (.build settings) := by
        intro w l
        cases hvalid : settings.validate with
        | error e => simp only [System.act, build, hvalid]
        | ok u =>
          cases hpool : Pool.create? settings.threadName settings.workers settings.stackSize with
          | none => simp only [System.act, build, hvalid, hpool]
          | some pool => simp only [System.act, build, hvalid, hpool]
      exact h.aloof hbuild
    | borrow name p =>
      simp only [System.act]
      rw [hpools]
      split
      · exact h.aloof (f := fun w => (w.borrow name p).2) fun _ _ => rfl
      · exact h
    | share s => exact h.aloof (aloof_share s)
    | unshare s => exact h.aloof (aloof_unshare s)
    | beginShutdown s closing =>
      simp only [System.act]
      rw [hheld]
      split
      · exact h.aloof (aloof_beginShutdown s closing)
      · exact h
    | finishShutdown s => exact h.aloof (aloof_finishShutdown s)
    | reserve s name label computation =>
      simp only [System.act, reserveFor]
      rw [hheld]
      split
      · exact h.reserve ..
      · exact h
    | testClosed q => exact h.testClosed q
    | spawn q => exact h.spawn q
    | letGo q => exact h.letGo q
    | attach q => exact h.attach q
    | resume q => exact h.resume q hfree
    | step q => exact h.step q hfree
    | dropTask q => exact h.dropTask q hfree
    | openGate g => exact h.aloof (aloof_openGate g)
    | pass t => exact h.aloof (f := fun w => { w with clock := w.clock + t }) fun _ _ => rfl
    | addPool pool =>
      exact h.aloof (f := fun w =>
        { w with pools := w.pools ++ [{ pool with forScope := false, stops := [] }] })
        fun _ _ => rfl
    | stopPool p stop =>
      have hscopes : w'.isScopes p = w.isScopes p := by
        unfold isScopes
        rw [hpools]
      simp only [System.act]
      rw [hscopes]
      split
      · exact h
      · exact h.aloof (f := fun w => w.stopPool p stop) fun _ _ => rfl
    | _ => cases hhandle

end Alike

/-! ## Operations of the caller -/

/-- In every run, no computation waits for a reservation that a caller has made, or is to make. -/
theorem unawaited_run {actions : List (Action V)}
    (hparent : ∀ x, (run {} actions).reservations[r]? = some x → x.parent = none) :
    Unawaited r (run {} actions) := by
  intro q y hy hawaits
  obtain ⟨access, z, htends⟩ := tended_run actions q y r hy hawaits
  cases (hparent z htends.getElem?_eq).symm.trans htends.parent_eq

/-- The actions that are not about the handle of the reservation `r`. -/
def others (r : ReservationId) (actions : List (Action V)) : List (Action V) :=
  actions.filter fun a => a.handle? ≠ some r

theorem others_append (r : ReservationId) (actions further : List (Action V)) :
    others r (actions ++ further) = others r actions ++ others r further :=
  List.filter_append ..

end Deferral.System
