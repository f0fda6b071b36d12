import Deferral.Proofs.System.Receipt

/-!
# Looking for the last time

A caller that blocks for a limited time looks for the outcome once more when its time is up, under
the lock of the cell. If the outcome is not there it lets go of the lock, requests an abort, and
returns that it has timed out. In a system these are one action, `expire`. Here they are two moves,
and anything can happen in between; above all, the outcome can be published.

A caller that blocks does nothing else with its handle meanwhile, and after the last
look not even that.

Main statements:
* `exists_system_run`: whatever is done in such moves, the system comes to by actions.
* `expire_eq`: a last look in vain and the abort right after it are the action of the system.
* `exists_moves`: as long as nobody is to give up, what can be done in the system
  can be done in moves.
* `sees_step`: what a move is for the caller of a reservation, one case for each way
  it can concern it.
-/

namespace Deferral

variable {V : Type}

/-- A system in which callers that have looked for the last time give up in a move of its own. -/
structure Timed (V : Type) where
  /-- The system. -/
  system : System V := {}
  /-- The reservations of which the caller has looked for the last time, in vain. -/
  failed : List ReservationId := []
  /-- The reservations of which a caller that has timed out has requested an abort. -/
  requested : List ReservationId := []

/-- What can happen in one indivisible step. -/
inductive Move (V : Type)
  /-- An action; a last look in vain does not yet give up. -/
  | act (a : Action V)
  /-- A caller whose last look was in vain requests an abort and returns. -/
  | giveUp (r : ReservationId)

/-- The handle that a move is about. -/
def Move.handle? : Move V → Option ReservationId
  | .act a => a.handle?
  | .giveUp r => some r

/-- Whether the handle is used up by a caller that blocks. -/
def Handle.blocks : Handle → Bool
  | .waiting _ => true
  | _ => false

namespace Timed

/-- Whether the caller of a reservation blocks. -/
def isBlocked (r : ReservationId) (t : Timed V) : Bool :=
  (t.system.reservations[r]?).any fun x => x.consumer.handle.blocks

/-- Whether an action is possible. A caller that blocks only looks for the outcome, and not any more
after the last look. -/
def permits (t : Timed V) : Action V → Bool
  | .fetch r | .expire r => r ∉ t.failed
  | a => (a.handle?).all fun r => !t.isBlocked r

/-- The reservation of which the action is the last look, if that is in vain. -/
def inVain? (t : Timed V) : Action V → Option ReservationId
  | .expire r => if (t.system.expireAnswer r).isGivenUp then some r else none
  | _ => none

/-- Take an action, if it is possible. -/
def act (a : Action V) (t : Timed V) : Timed V :=
  if t.permits a then
    match t.inVain? a with
    | some r => { t with failed := r :: t.failed }
    | none => { t with system := t.system.act a }
  else t

/-- What the return of a caller that gives up comes to in the system. To abort a computation that is
over does nothing, so once the outcome is there only the handle goes. -/
def leaving (r : ReservationId) (w : System V) : Action V :=
  if (w.expireAnswer r).isGivenUp then .expire r else .drop r

/-- Whether the launch of a reservation has left a task to abort. -/
def isAbortable (r : ReservationId) (t : Timed V) : Bool :=
  (t.system.reservations[r]?).any Reservation.spawned

/-- Request an abort, if there is a task to abort, and return. -/
def giveUp (r : ReservationId) (t : Timed V) : Timed V :=
  if r ∈ t.failed then
    { system := t.system.act (leaving r t.system)
      failed := t.failed.filter (· ≠ r)
      requested := if t.isAbortable r then r :: t.requested else t.requested }
  else t

/-- The process after a move; one that is not possible changes nothing. -/
def step (t : Timed V) : Move V → Timed V
  | .act a => t.act a
  | .giveUp r => t.giveUp r

/-- The process after a sequence of moves. -/
def run (t : Timed V) (moves : List (Move V)) : Timed V :=
  moves.foldl step t

/-- What a caller is answered with. -/
def answer? (t : Timed V) : Move V → Option (Delivery V)
  | .act a => if t.permits a && (t.inVain? a).isNone then t.system.answer? a else none
  | .giveUp r =>
    if r ∈ t.failed then
      (t.system.waitLimit? r).map fun limit => .outcome (.error (.timedOut limit))
    else none

/-- What the caller of a reservation is handed during a move. -/
def handed (r : ReservationId) (t : Timed V) (m : Move V) : List (Delivery V) :=
  (if m.handle? = some r then t.answer? m else none).toList ++
    (((t.step m).system.calls r).drop (t.system.calls r).length).map .outcome

/-- What the caller of a reservation is handed during a sequence of moves. -/
def received (r : ReservationId) (t : Timed V) : List (Move V) → List (Delivery V)
  | [] => []
  | m :: moves => t.handed r m ++ received r (t.step m) moves

variable {t t' : Timed V} {m : Move V} {a : Action V} {r : ReservationId}

@[simp]
theorem run_nil (t : Timed V) : t.run [] = t := rfl

@[simp]
theorem run_cons (t : Timed V) (m : Move V) (moves : List (Move V)) :
    t.run (m :: moves) = (t.step m).run moves := rfl

@[simp]
theorem run_append (t : Timed V) (moves further : List (Move V)) :
    t.run (moves ++ further) = (t.run moves).run further :=
  List.foldl_append ..

theorem received_append (r : ReservationId) (t : Timed V) (moves further : List (Move V)) :
    received r t (moves ++ further) = received r t moves ++ received r (t.run moves) further := by
  induction moves generalizing t with
  | nil => rfl
  | cons m moves ih => simp [received, ih]

/-! ## Single moves -/

/-- A last look in vain is a last look. -/
theorem eq_expire_of_inVain? (h : t.inVain? a = some r) :
    a = .expire r ∧ (t.system.expireAnswer r).isGivenUp = true := by
  unfold inVain? at h
  split at h
  next q =>
    split at h
    next hgiven =>
      obtain rfl := Option.some.inj h
      exact ⟨rfl, hgiven⟩
    next => cases h
  next => cases h

/-- An action that is possible, and no last look in vain, is one of the system. -/
theorem step_act (hpermits : t.permits a = true) (hvain : t.inVain? a = none) (r : ReservationId) :
    t.step (.act a) = { t with system := t.system.act a } ∧
      t.handed r (.act a) = t.system.handed r a := by
  have hstep : t.step (.act a) = { t with system := t.system.act a } := by
    simp only [step, act, hpermits, hvain, if_true]
  exact ⟨hstep, by simp [handed, hstep, System.handed, Move.handle?, answer?, hpermits, hvain]⟩

/-- A move that leaves the system alone hands nothing to a caller that it does not answer. -/
theorem handed_eq_nil (hsystem : (t.step m).system = t.system)
    (hanswer : m.handle? = some r → t.answer? m = none) : t.handed r m = [] := by
  simp only [handed, hsystem, List.drop_length, List.map_nil, List.append_nil]
  split
  next hm =>
    rw [hanswer hm]
    rfl
  next => rfl

/-- A last look in vain leaves the system alone. -/
theorem step_expire (hfree : r ∉ t.failed) (hgiven : (t.system.expireAnswer r).isGivenUp = true)
    (q : ReservationId) : t.step (.act (.expire r)) = { t with failed := r :: t.failed } ∧
      t.handed q (.act (.expire r)) = [] := by
  have hstep : t.step (.act (.expire r)) = { t with failed := r :: t.failed } := by
    simp [step, act, permits, inVain?, hfree, hgiven]
  refine ⟨hstep, handed_eq_nil (by rw [hstep]) fun _ => ?_⟩
  simp [answer?, inVain?, hgiven]

/-! ## What the system does -/

/-- What gives up is about the handle of the reservation. -/
theorem handle?_leaving (r : ReservationId) (w : System V) : (leaving r w).handle? = some r := by
  unfold leaving
  split <;> rfl

/-- A move comes to one action at most. -/
theorem exists_system_step (t : Timed V) (m : Move V) :
    ∃ actions, (t.step m).system = t.system.run actions := by
  cases m with
  | act a =>
    unfold step act
    dsimp only
    split
    -- A last look in vain is no action; what is not possible is none either.
    · split
      · exact ⟨[], rfl⟩
      · exact ⟨[a], rfl⟩
    · exact ⟨[], rfl⟩
  | giveUp r =>
    unfold step giveUp
    dsimp only
    split
    · exact ⟨[leaving r t.system], rfl⟩
    · exact ⟨[], rfl⟩

/-- Whatever is done in moves, the system comes to by actions. -/
theorem exists_system_run (t : Timed V) (moves : List (Move V)) :
    ∃ actions, (t.run moves).system = t.system.run actions := by
  induction moves generalizing t with
  | nil => exact ⟨[], rfl⟩
  | cons m moves ih =>
    obtain ⟨actions, hstep⟩ := exists_system_step t m
    obtain ⟨further, hrun⟩ := ih (t.step m)
    exact ⟨actions ++ further, by rw [run_cons, hrun, hstep, System.run_append]⟩

/-- Who gives up blocks for a limited time, and the outcome was not published. -/
theorem exists_blocking_of_isGivenUp {w : System V} (h : (w.expireAnswer r).isGivenUp = true) :
    ∃ x limit, w.reservations[r]? = some x ∧ System.isOffered x = true ∧
      x.consumer.handle = .waiting (.blocking limit) ∧ x.consumer.cell.slot = .pending ∧
      w.expireAnswer r = .givenUp limit ∧ w.waitLimit? r = some limit := by
  unfold System.expireAnswer at h ⊢
  rcases hx : w.reservations[r]? with _ | x
  · simp [hx, Consumer.Expiry.isGivenUp] at h
  · by_cases hoffered : System.isOffered x = true
    · simp only [hx, if_pos hoffered] at h ⊢
      obtain ⟨⟨limit, hhandle⟩, hpending⟩ := (Consumer.isGivenUp_expire_iff _).mp h
      refine ⟨x, limit, rfl, hoffered, hhandle, hpending, ?_, ?_⟩
      · simp [Consumer.expire, Consumer.fetch, hhandle, Cell.take?, hpending]
      · simp [System.waitLimit?, hx, hhandle, Waiting.limit?]
    · simp [hx, hoffered, Consumer.Expiry.isGivenUp] at h

/-- A last look in vain and the abort right after it are the action of the system, and everybody
is handed the same. -/
theorem expire_eq (hfree : r ∉ t.failed) (hgiven : (t.system.expireAnswer r).isGivenUp = true)
    (q : ReservationId) :
    t.run [.act (.expire r), .giveUp r] =
      { system := t.system.act (.expire r), failed := t.failed.filter (· ≠ r),
        requested := if t.isAbortable r then r :: t.requested else t.requested } ∧
      received q t [.act (.expire r), .giveUp r] = t.system.handed q (.expire r) := by
  obtain ⟨-, limit, -, -, -, -, hanswer, hlimit⟩ := exists_blocking_of_isGivenUp hgiven
  obtain ⟨hlook, hfirst⟩ := step_expire hfree hgiven q
  -- Nothing has happened in between, so the outcome is still not there, and the abort takes effect.
  have hleave : ({ t with failed := r :: t.failed } : Timed V).giveUp r =
      { system := t.system.act (.expire r), failed := t.failed.filter (· ≠ r),
        requested := if t.isAbortable r then r :: t.requested else t.requested } := by
    rw [giveUp, if_pos List.mem_cons_self, leaving, if_pos hgiven]
    congr 1
    simp
  have hsecond : ({ t with failed := r :: t.failed } : Timed V).handed q (.giveUp r) =
      t.system.handed q (.expire r) := by
    simp [handed, step, hleave, System.handed, Move.handle?, Action.handle?, answer?, hlimit,
      System.answer?, hanswer, Consumer.Expiry.answer?]
  exact ⟨by rw [run_cons, run_cons, run_nil, hlook, step, hleave],
    by simp only [received, hfirst, hlook, hsecond, List.nil_append, List.append_nil]⟩

/-- As long as nobody is to give up, what the callers can do in the system they can do in moves, and
everybody is handed the same. -/
theorem exists_moves (hfailed : t.failed = []) (hpermits : t.permits a = true) :
    ∃ moves, (t.run moves).system = t.system.act a ∧ (t.run moves).failed = [] ∧
      ∀ q, received q t moves = t.system.handed q a := by
  rcases hvain : t.inVain? a with _ | r
  · refine ⟨[.act a], ?_, ?_, fun q => ?_⟩
    · rw [run_cons, run_nil, (step_act hpermits hvain 0).1]
    · rw [run_cons, run_nil, (step_act hpermits hvain 0).1, hfailed]
    · rw [received, received, List.append_nil, (step_act hpermits hvain q).2]
  · obtain ⟨rfl, hgiven⟩ := eq_expire_of_inVain? hvain
    have hfree : r ∉ t.failed := by simp [hfailed]
    refine ⟨[.act (.expire r), .giveUp r], ?_, ?_, fun q => (expire_eq hfree hgiven q).2⟩
    · rw [(expire_eq hfree hgiven r).1]
    · rw [(expire_eq hfree hgiven r).1, hfailed, List.filter_nil]

/-! ## What a move is for a caller -/

/-- What the move `m` is for the caller of the reservation `r`: what it makes of the process `t`,
and what he is handed. -/
inductive Sees (r : ReservationId) (t : Timed V) : Move V → Timed V → List (Delivery V) → Prop
  /-- Nothing. -/
  | nothing {m : Move V} {t' : Timed V} (hsystem : t'.system = t.system)
      (hfailed : r ∈ t'.failed ↔ r ∈ t.failed) (hrequested : r ∈ t'.requested ↔ r ∈ t.requested) :
      Sees r t m t' []
  /-- An action that is not about his handle. -/
  | other {m : Move V} {t' : Timed V} (a : Action V) (ha : a.handle? ≠ some r)
      (hsystem : t'.system = t.system.act a) (hfailed : r ∈ t'.failed ↔ r ∈ t.failed)
      (hrequested : r ∈ t'.requested ↔ r ∈ t.requested) : Sees r t m t' (t.system.handed r a)
  /-- An operation of his, that is not a last look in vain. -/
  | own {a : Action V} (ha : a.handle? = some r) (hpermits : t.permits a = true)
      (hvain : t.inVain? a = none) :
      Sees r t (.act a) { t with system := t.system.act a } (t.system.handed r a)
  /-- His last look, in vain. -/
  | inVain (hfree : r ∉ t.failed) (hgiven : (t.system.expireAnswer r).isGivenUp = true) :
      Sees r t (.act (.expire r)) { t with failed := r :: t.failed } []
  /-- He gives up. -/
  | giveUp (hfailed : r ∈ t.failed) : Sees r t (.giveUp r) (t.giveUp r) (t.handed r (.giveUp r))

/-- Every move is one of these for him. -/
theorem sees_step (r : ReservationId) (t : Timed V) (m : Move V) :
    Sees r t m (t.step m) (t.handed r m) := by
  cases m with
  | act a =>
    by_cases hpermits : t.permits a = true
    · rcases hvain : t.inVain? a with _ | q
      · obtain ⟨hstep, hhanded⟩ := step_act hpermits hvain r
        rw [hhanded, hstep]
        by_cases ha : a.handle? = some r
        · exact .own ha hpermits hvain
        · exact .other a ha rfl .rfl .rfl
      · obtain ⟨rfl, hgiven⟩ := eq_expire_of_inVain? hvain
        have hfree : q ∉ t.failed := by simpa [permits] using hpermits
        obtain ⟨hstep, hhanded⟩ := step_expire hfree hgiven r
        rw [hhanded, hstep]
        by_cases hq : q = r
        · subst hq
          exact .inVain hfree hgiven
        · exact .nothing rfl (by simp [Ne.symm hq]) .rfl
    · have hstep : t.step (.act a) = t := by
        simp only [step, act, if_neg hpermits]
      rw [handed_eq_nil (by rw [hstep]) fun _ => by simp [answer?, hpermits], hstep]
      exact .nothing rfl .rfl .rfl
  | giveUp q =>
    by_cases hfailed : q ∈ t.failed
    · by_cases hq : q = r
      · subst hq
        exact .giveUp hfailed
      · have hstep : t.step (.giveUp q) = t.giveUp q := rfl
        -- To him it is an action with another handle.
        have hleaving : (leaving q t.system).handle? ≠ some r := by
          rw [handle?_leaving]
          exact fun h => hq (Option.some.inj h)
        have hsystem : (t.giveUp q).system = t.system.act (leaving q t.system) := by
          simp only [giveUp, if_pos hfailed]
        have hhanded : t.handed r (.giveUp q) = t.system.handed r (leaving q t.system) := by
          simp [handed, hstep, hsystem, System.handed, Move.handle?, hq, hleaving]
        rw [hhanded]
        refine .other _ hleaving hsystem ?_ ?_
        · simp [step, giveUp, if_pos hfailed, Ne.symm hq]
        · simp only [step, giveUp, if_pos hfailed]
          split <;> simp [Ne.symm hq]
    · have hstep : t.step (.giveUp q) = t := by
        simp only [step, giveUp, if_neg hfailed]
      rw [handed_eq_nil (by rw [hstep]) fun _ => by simp [answer?, hfailed], hstep]
      exact .nothing rfl .rfl .rfl

end Timed

end Deferral
