import Deferral.Proofs.Duration
import Deferral.Proofs.System.Agreement

/-!
# Callers that are refused

The caller of a future can wait for it as often as he likes, for however long or short a time, and
gets the future back each time if the outcome has not come. Until he is handed the outcome, the
system is the one in which he has not tried at all, but for the handle while he waits; and once he
has the future back, it is the same system.

Main statements:
* `lent_run`: only the handle shows that the caller has tried.
* `refusal_run`: a caller is refused only as long as nothing is published, and it changes nothing.
-/

namespace Deferral

variable {V : Type}

/-- Whether a handle is a future, or that of a wait which gives the future back when
its time is up. -/
def Handle.isLent : Handle → Bool
  | .future | .waiting (.joining _) => true
  | _ => false

/-- Whether an action belongs to a wait for a future that is limited in time. -/
def Action.tries : Action V → Bool
  | .use _ (.join (some _)) | .fetch _ | .expire _ => true
  | _ => false

namespace Consumer

variable {c : Consumer V}

/-- Where an outcome is published does not depend on the handle. -/
theorem publish_handle (h : Handle) (o : Outcome V) (c : Consumer V) :
    { c with handle := h }.publish o = { c.publish o with handle := h } := by
  unfold publish
  dsimp only
  split
  next callback _ _ => cases callback <;> rfl
  next => rfl

/-- Where outcomes are published does not depend on the handle. -/
theorem foldl_publish_handle (h : Handle) (os : List (Outcome V)) (c : Consumer V) :
    os.foldl (fun c o => c.publish o) { c with handle := h } =
      { os.foldl (fun c o => c.publish o) c with handle := h } := by
  induction os generalizing c with
  | nil => rfl
  | cons o os ih => rw [List.foldl_cons, List.foldl_cons, publish_handle, ih]

theorem attaching_foldl_publish (os : List (Outcome V)) (c : Consumer V) :
    (os.foldl (fun c o => c.publish o) c).attaching = c.attaching := by
  induction os generalizing c with
  | nil => rfl
  | cons o os ih => rw [List.foldl_cons, ih, attaching_publish]

/-- What becomes of a wait for a future whose time is up: it is answered, or the future is handed
back. -/
theorem expire_of_joining {limit : Duration} (h : c.handle = .waiting (.joining limit)) :
    (∃ d, c.fetch.2 = some d ∧ c.expire = (c.fetch.1, .delivered d)) ∨
      c.fetch.2 = none ∧ c.expire = ({ c with handle := .future }, .handedBack) := by
  unfold expire
  split
  next c' d hfetch =>
    rw [hfetch]
    exact .inl ⟨d, rfl, rfl⟩
  next c' hfetch =>
    rw [hfetch, h]
    exact .inr ⟨rfl, rfl⟩

end Consumer

/-- A try that is not answered changes the handle only. -/
theorem Reservation.exists_operate_eq_of_tries {a : Action V} {x : Reservation V}
    (htries : a.tries = true) (hlent : x.consumer.handle.isLent = true)
    (hanswer : x.answer? a = none) :
    ∃ h : Handle, h.isLent = true ∧
      x.operate a = { x with consumer := { x.consumer with handle := h } } := by
  -- The caller has the future, or waits with it for a limited time.
  have hhandle : x.consumer.handle = .future ∨
      ∃ limit, x.consumer.handle = .waiting (.joining limit) := by
    unfold Handle.isLent at hlent
    split at hlent
    next hfuture => exact .inl hfuture
    next limit hwaiting => exact .inr ⟨limit, hwaiting⟩
    next => cases hlent
  cases a with
  | use q u =>
    cases u with
    | join limit? =>
      cases limit? with
      | none => cases htries
      | some limit =>
        rcases hhandle with hfuture | ⟨limit', hwaiting⟩
        · refine ⟨.waiting (.joining limit), rfl, ?_⟩
          simp [operate, Consumer.begin, hfuture]
        · refine ⟨x.consumer.handle, hlent, ?_⟩
          have hbegin : x.consumer.begin (.join (some limit)) = { consumer := x.consumer } := by
            simp only [Consumer.begin, hwaiting]
          simp only [operate, hbegin, Bool.false_eq_true, false_and, if_false]
    | _ => cases htries
  | fetch q =>
    refine ⟨x.consumer.handle, hlent, ?_⟩
    rw [operate, Consumer.fetch_eq_self hanswer]
  | expire q =>
    rcases hhandle with hfuture | ⟨limit, hwaiting⟩
    · refine ⟨x.consumer.handle, hlent, ?_⟩
      have hexpire := Consumer.expire_of_not_waiting (c := x.consumer) (by simp [hfuture])
      simp [operate, hexpire, Consumer.Expiry.isGivenUp]
    · refine ⟨.future, rfl, ?_⟩
      rcases Consumer.expire_of_joining hwaiting with ⟨d, -, hexpire⟩ | ⟨-, hexpire⟩
      · rw [answer?, hexpire] at hanswer
        cases hanswer
      · simp [operate, hexpire, Consumer.Expiry.isGivenUp]
  | _ => cases htries

namespace System

variable {w w' : System V} {a : Action V} {r : ReservationId} {x x' : Reservation V}

/-! ## What others do -/

/-- Unless something is done with the handle, the consumer changes only by what is published. -/
theorem Changes.exists_consumer_eq (h : w.Changes r a x x') (hby : ¬w.Handles r a)
    (hattaching : x.consumer.attaching = none) :
    ∃ os, x'.outcomes = x.outcomes ++ os ∧
      x'.consumer = os.foldl (fun c o => c.publish o) x.consumer := by
  induction h with
  | refl => exact ⟨[], by simp, rfl⟩
  | @tail y y' _ hchange ih =>
    obtain ⟨os, houtcomes, hconsumer⟩ := ih
    have hnone : y.consumer.attaching = none := by
      rw [hconsumer, Consumer.attaching_foldl_publish, hattaching]
    -- A computation that is over is let go of, and then its outcome is published.
    have concludes {z : Reservation V} (hz : z.outcomes = y.outcomes) (hc : z.consumer = y.consumer)
        {phase : Phase} {event : Event V} {o : Outcome V} :
        ∃ os, (z.conclude phase event o).outcomes = x.outcomes ++ os ∧
          (z.conclude phase event o).consumer = os.foldl (fun c o => c.publish o) x.consumer := by
      refine ⟨os ++ [o], ?_, ?_⟩
      · rw [Reservation.conclude, hz, houtcomes, List.append_assoc]
      · rw [Reservation.conclude, hc, hconsumer, List.foldl_append]
        rfl
    cases hchange with
    | handle _ hby' => exact absurd hby' hby
    | attach =>
      refine ⟨os, houtcomes, ?_⟩
      rw [← hconsumer, Consumer.attach, hnone]
    | refuse | finish | drop => exact concludes rfl rfl
    | lose => exact concludes (z := { y with spawned := true }) rfl rfl
    | _ => exact ⟨os, houtcomes, hconsumer⟩

/-! ## The handle that is lent -/

/-- The caller of the reservation `r` has a future in the system `w'`, and the outcome is owed to
him. The system `w` is the same, unless he waits for it there. -/
structure Lent (r : ReservationId) (w w' : System V) : Prop where
  /-- He has a future in the one system. -/
  owed : ∃ x, w'.reservations[r]? = some x ∧ x.parent = none ∧ x.consumer.handle = .future ∧
    x.consumer.Owes none x.outcomes.head?
  /-- In the other he has it too, or waits for it. -/
  handle : ∃ h : Handle, h.isLent = true ∧ w = w'.updateConsumer r fun c => { c with handle := h }

namespace Lent

/-- What there is of the reservation in the system where its caller may be waiting. -/
theorem exists_getElem? (hlent : Lent r w w') : ∃ x h, h.isLent = true ∧
    w'.reservations[r]? = some x ∧ x.parent = none ∧ x.consumer.handle = .future ∧
      x.consumer.Owes none x.outcomes.head? ∧
      w.reservations[r]? = some { x with consumer := { x.consumer with handle := h } } ∧
      w = w'.updateConsumer r fun c => { c with handle := h } := by
  obtain ⟨⟨x, hx, hparent, hfuture, howes⟩, h, hh, rfl⟩ := hlent
  refine ⟨x, h, hh, hx, hparent, hfuture, howes, ?_, rfl⟩
  rw [updateConsumer, reservations_update, List.getElem?_modify_eq, hx]
  rfl

theorem refl (hx : w.reservations[r]? = some x) (hparent : x.parent = none)
    (hfuture : x.consumer.handle = .future) (howes : x.consumer.Owes none x.outcomes.head?) :
    Lent r w w := by
  refine ⟨⟨x, hx, hparent, hfuture, howes⟩, .future, rfl, (update_eq_self hx ?_).symm⟩
  rw [← hfuture]

/-- While others act, the handle stays lent. -/
theorem act {actions actions' : List (Action V)}
    (hlent : Lent r (run {} actions) (run {} actions')) (ha : a.handle? ≠ some r) :
    Lent r ((run {} actions).act a) ((run {} actions').act a) := by
  obtain ⟨x, h, hh, hx', hparent, hfuture, howes, hx, heq⟩ := hlent.exists_getElem?
  have hby : ¬(run {} actions).Handles r a := fun hby =>
    ha (hby.caller_of_parent_eq_none hx hparent).1
  have hby' : ¬(run {} actions').Handles r a := fun hby =>
    ha (hby.caller_of_parent_eq_none hx' hparent).1
  obtain ⟨hattaching, -, -⟩ := howes.slot_eq
  -- The systems go on alike, and the same is published in both.
  obtain ⟨y, hy, hchanges⟩ := exists_changes_act hx a
  obtain ⟨y', hy', hchanges'⟩ := exists_changes_act hx' a
  have halike : Alike r ((run {} actions').act a) ((run {} actions).act a) := by
    refine Alike.act ⟨{ x.consumer with handle := h }, ?_⟩ ha (unawaited_run fun z hz => ?_)
    · rw [heq]
      exact update_congr hx' rfl
    · obtain rfl := Option.some.inj (hx'.symm.trans hz)
      exact hparent
  obtain ⟨c, hc⟩ := halike
  have hy'' : ((run {} actions).act a).reservations[r]? = some { y' with consumer := c } := by
    rw [hc, updateConsumer, reservations_update, List.getElem?_modify_eq, hy']
    rfl
  obtain rfl := Option.some.inj (hy.symm.trans hy'')
  obtain ⟨os, houtcomes, hconsumer⟩ := Changes.exists_consumer_eq hchanges hby hattaching
  obtain ⟨os', houtcomes', hconsumer'⟩ := Changes.exists_consumer_eq hchanges' hby' hattaching
  obtain rfl : os = os' := List.append_cancel_left (houtcomes.symm.trans houtcomes')
  have hhandle : c = { y'.consumer with handle := h } := by
    rw [hconsumer', ← Consumer.foldl_publish_handle]
    exact hconsumer
  refine ⟨⟨y', hy', (Changes.grows hchanges').parent_eq.trans hparent,
    (Changes.handle_eq hchanges' hby').trans hfuture, ?_⟩, h, hh, ?_⟩
  · exact (Changes.owes hchanges' hby' (sound_run hx') howes).resolve_right fun hcall => by
      cases hcall.1
  · rw [hc, hhandle]
    exact update_congr hy' rfl

/-- A try that is not answered changes the handle only. -/
theorem act_self (hlent : Lent r w w') (ha : a.handle? = some r) (htries : a.tries = true)
    (hhanded : w.handed r a = []) : Lent r (w.act a) w' := by
  obtain ⟨x, h, hh, -, -, -, -, hx, heq⟩ := hlent.exists_getElem?
  have hdrop : a ≠ .drop r := by
    rintro rfl
    cases htries
  have hdirect : a ≠ .runDirectly r := by
    rintro rfl
    cases htries
  -- An operation that is not offered does nothing at all.
  by_cases hoffered : isOffered { x with consumer := { x.consumer with handle := h } } = true
  · rw [handed_of_offered ha hdirect hx hoffered, List.append_eq_nil_iff,
      Option.toList_eq_nil_iff] at hhanded
    obtain ⟨h', hh', hoperate⟩ := Reservation.exists_operate_eq_of_tries htries hh hhanded.1
    refine ⟨hlent.owed, h', hh', ?_⟩
    rw [act_eq_update ha hdrop hdirect hx hoffered,
      update_congr (g := fun x => { x with consumer := { x.consumer with handle := h' } })
        hx hoperate, heq]
    exact update_update ..
  · rw [act_of_not_offered ha fun y hy => ?_]
    · exact hlent
    · obtain rfl := Option.some.inj (hx.symm.trans hy)
      exact Bool.eq_false_iff.mpr hoffered

end Lent

/-- Whatever else happens while the caller tries a future in vain, the system is the one in which he
does not try, but for the handle. -/
theorem lent_run {actions further : List (Action V)}
    (hx : (run {} actions).reservations[r]? = some x)
    (hparent : x.parent = none) (hfuture : x.consumer.handle = .future)
    (howes : x.consumer.Owes none x.outcomes.head?)
    (htries : ∀ a ∈ further, a.handle? = some r → a.tries = true)
    (hreceived : received r (run {} actions) further = []) :
    Lent r ((run {} actions).run further) ((run {} actions).run (others r further)) := by
  induction further using List.reverseRecOn with
  | nil => exact .refl hx hparent hfuture howes
  | append_singleton further a ih =>
    rw [received_append, List.append_eq_nil_iff] at hreceived
    have hlent := ih (fun b hb => htries b (List.mem_append_left _ hb)) hreceived.1
    rw [others_append, run_concat, run_append]
    -- A try of the caller is left out of the other run; any other action is taken in both.
    by_cases ha : a.handle? = some r
    · have hothers : others r [a] = [] := by simp [others, ha]
      obtain ⟨y, hy, -⟩ := exists_grows_run hx further
      have hhanded := hreceived.2
      rw [received_singleton hy, List.map_eq_nil_iff] at hhanded
      rw [hothers, run_nil]
      exact hlent.act_self ha (htries a (by simp) ha) hhanded
    · have hothers : others r [a] = [a] := by simp [others, ha]
      rw [hothers, run_cons, run_nil]
      rw [← run_append, ← run_append] at hlent ⊢
      exact hlent.act ha

/-! ## What a caller is refused -/

/-- The handle in itself does not matter to a future or a wait for it. -/
theorem Lent.owes (hlent : Lent r w w') (hx : w.reservations[r]? = some x) :
    x.consumer.Owes none x.outcomes.head? := by
  obtain ⟨x', h, hh, -, -, -, howes, hx', -⟩ := hlent.exists_getElem?
  obtain rfl := Option.some.inj (hx.symm.trans hx')
  obtain ⟨hattaching, hcallback, hslot⟩ := howes.slot_eq
  refine Consumer.owes_of_slot (Handle.serves_none_of_looks ?_) howes.calls_eq hattaching
    hcallback hslot
  unfold Handle.isLent at hh
  split at hh
  · rfl
  · rfl
  · cases hh

/-- Once he has the future back, the system is the one in which he does not try. -/
theorem Lent.eq_of_future (hlent : Lent r w w') (hx : w.reservations[r]? = some x)
    (hfuture : x.consumer.handle = .future) : w = w' := by
  obtain ⟨x', h, -, hx₀, -, hfuture', -, hx', heq⟩ := hlent.exists_getElem?
  obtain rfl := Option.some.inj (hx.symm.trans hx')
  obtain rfl : h = .future := hfuture
  rw [heq]
  refine update_eq_self hx₀ ?_
  rw [← hfuture']

/-- The caller of the reservation `r` has turned it into a future after `early`, and has tried that
in vain in `late`. -/
structure Refusal (r : ReservationId) (early late : List (Action V)) : Prop where
  /-- Nothing but the handle shows that he has tried. -/
  lent : ∃ h : Handle, h.isLent = true ∧ run {} (early ++ .use r .spawn :: late) =
    (run {} (early ++ .use r .spawn :: others r late)).updateConsumer r fun c => { c with handle := h }
  /-- If he has the future back, the system is the one in which he has not tried, and whatever he
  does with the future comes to the same. -/
  back : ∀ x, (run {} (early ++ .use r .spawn :: late)).reservations[r]? = some x →
    x.consumer.handle = .future →
      run {} (early ++ .use r .spawn :: late) = run {} (early ++ .use r .spawn :: others r late)
  /-- If his time is up and nothing is published, he gets the future back, and the system is the one
  in which he has not tried. -/
  refused : ∀ x limit, (run {} (early ++ .use r .spawn :: late)).reservations[r]? = some x →
    isOffered x = true → x.consumer.handle = .waiting (.joining limit) → x.outcomes = [] →
      (run {} (early ++ .use r .spawn :: late)).fetchAnswer r = none ∧
        (run {} (early ++ .use r .spawn :: late)).expireAnswer r = .handedBack ∧
        (run {} (early ++ .use r .spawn :: late)).act (.expire r) =
          run {} (early ++ .use r .spawn :: others r late)
  /-- If the outcome is published he is answered with it, also if his time is up. -/
  answered : ∀ x limit o, (run {} (early ++ .use r .spawn :: late)).reservations[r]? = some x →
    isOffered x = true → x.consumer.handle = .waiting (.joining limit) → x.outcomes = [o] →
      (run {} (early ++ .use r .spawn :: late)).fetchAnswer r = some (.outcome o) ∧
        (run {} (early ++ .use r .spawn :: late)).expireAnswer r = .delivered (.outcome o)
  /-- Once he could know that the outcome is there, he does not get the future back any more. -/
  assured : ∀ x, (run {} (early ++ .use r .spawn :: late)).reservations[r]? = some x →
    x.consumer.cell.isDone = true → ∀ further : List (Action V),
      ((run {} (early ++ .use r .spawn :: late)).run further).expireAnswer r ≠ .handedBack
  /-- If the limit leads beyond the seconds of 63 bits, he does not get the future back. -/
  patient : ∀ x limit during,
    (run {} (early ++ .use r .spawn :: late)).reservations[r]? = some x →
    x.consumer.handle = .waiting (.joining limit) →
    2 ^ 63 * 10 ^ 9 ≤ (run {} (early ++ .use r .spawn :: late)).clock + limit.nanoseconds →
      ((run {} (early ++ .use r .spawn :: late)).waitOut r during).2 ≠ .handedBack

/-- A future is handed back only if no outcome is there. -/
theorem isDone_of_expireAnswer (hx : w.reservations[r]? = some x)
    (hback : w.expireAnswer r = .handedBack) : x.consumer.cell.isDone = false := by
  simp only [expireAnswer, hx] at hback
  split at hback
  · cases x.consumer.expires with
    | handedBack _ hpending => rw [Cell.isDone, hpending]; rfl
    | delivered _ _ hexpire | givenUp _ _ hexpire | unbounded _ _ _ hexpire =>
      rw [hexpire] at hback
      cases hback
  · cases hback

/-- A wait that has no deadline does not hand the future back. -/
theorem waitOut_ne_handedBack {limit : Duration} (hx : w.reservations[r]? = some x)
    (hhandle : x.consumer.handle = .waiting (.joining limit))
    (hdeadline : limit.deadline? w.clock = none) (during : System V → System V) :
    (w.waitOut r during).2 ≠ .handedBack := by
  have hnone : ((w.waitLimit? r).bind fun d => d.deadline? w.clock) = none := by
    simp [waitLimit?, hx, hhandle, Waiting.limit?, hdeadline]
  unfold waitOut
  rw [hnone]
  dsimp only
  split
  · nofun
  · nofun
  next heq => cases heq

/-- Only a reservation is spawned, and that makes it a future. -/
theorem handle_of_starts_spawn (hstarts : (Action.use r .spawn : Action V).starts r x = true) :
    (x.consumer.begin .spawn).consumer.handle = .future := by
  obtain ⟨-, hlaunch⟩ := Action.starts_iff.mp hstarts
  cases x.consumer.begins .spawn with
  | launched hl hbegin =>
    rw [hbegin]
    generalize x.consumer.handle = handle at hl
    cases hl with
    | spawn => rfl
  | continued _ hbegin | answered _ hbegin | told _ hbegin | ignored _ _ hbegin =>
    rw [hbegin] at hlaunch
    cases hlaunch

/-- **A caller that is refused.** A caller that tries a future is refused only as long as nothing is
published, and that changes nothing. -/
theorem refusal_run {early late : List (Action V)} (hx : (run {} early).reservations[r]? = some x)
    (hstarts : (Action.use r .spawn : Action V).starts r x = true)
    (htries : ∀ a ∈ late, a.handle? = some r → a.tries = true)
    (hreceived : received r {} (early ++ .use r .spawn :: late) = []) : Refusal r early late := by
  obtain ⟨callback?, x₁, hx₁, hparent, -, hconsumer, howes, -⟩ := owes_launch hx hstarts
  have hfuture : x₁.consumer.handle = .future := hconsumer ▸ handle_of_starts_spawn hstarts
  obtain rfl := Handle.eq_none_of_looks (by rw [hfuture]; rfl) howes.serves
  have happend (actions : List (Action V)) :
      (early ++ [.use r .spawn]) ++ actions = early ++ .use r .spawn :: actions := by
    rw [List.append_assoc, List.singleton_append]
  rw [← happend, received_append, List.append_eq_nil_iff] at hreceived
  -- Nothing is handed to the caller, so he is lent the future all along.
  have hlent := lent_run hx₁ hparent hfuture howes htries hreceived.2
  rw [← run_append, ← run_append, happend, happend] at hlent
  refine
    { lent := hlent.handle
      back := fun x hx hhandle => hlent.eq_of_future hx hhandle
      refused := fun x limit hx hoffered hhandle hnone => ?_
      answered := fun x limit o hx hoffered hhandle hone => ?_
      assured := fun x hx hdone further hback => ?_
      patient := fun x limit during hx hhandle hdeadline =>
        waitOut_ne_handedBack hx hhandle (Duration.deadline?_eq_none_iff.mpr hdeadline) during }
  · -- Nothing is published, so a look fails and an expired wait hands the future back.
    have hdirect : (.expire r : Action V) ≠ .runDirectly r := nofun
    have hfetch : x.consumer.fetch.2 = none := by
      rw [(hlent.owes hx).fetch hhandle, hnone]
      rfl
    obtain ⟨-, hexpire⟩ := (Consumer.expire_of_joining hhandle).resolve_left (by
      rintro ⟨d, hd, -⟩
      cases hfetch.symm.trans hd)
    refine ⟨?_, ?_, ?_⟩
    · rw [fetchAnswer, hx, Option.bind_some, if_pos hoffered, hfetch]
    · simp only [expireAnswer, hx, if_pos hoffered, hexpire]
    · -- He is not answered, and has the future back.
      have hhanded : (run {} (early ++ .use r .spawn :: late)).handed r (.expire r) = [] := by
        rw [handed_of_offered rfl hdirect hx hoffered]
        simp [Reservation.answer?, Reservation.operate, hexpire, Consumer.Expiry.answer?]
      have hafter := getElem?_act_of_offered rfl hdirect hx hoffered
      exact (hlent.act_self rfl rfl hhanded).eq_of_future hafter (by
        simp [Reservation.operate, hexpire])
  · -- The outcome is published, so both of them find it.
    have howes := hlent.owes hx
    have hhead : x.outcomes.head? = some o := by rw [hone]; rfl
    have hfetch := howes.fetch hhandle
    have hexpire := (howes.expire hhandle).1 o hhead
    rw [hhead, hhandle] at hfetch
    rw [hhandle] at hexpire
    refine ⟨?_, ?_⟩
    · rw [fetchAnswer, hx, Option.bind_some, if_pos hoffered, hfetch]
      rfl
    · simp only [expireAnswer, hx, if_pos hoffered, hexpire]
      rfl
  · -- What was published stays published.
    obtain ⟨x', hx', hgrows⟩ := exists_grows_run hx further
    have hempty := isDone_of_expireAnswer hx' hback
    rw [← run_append] at hx'
    rw [(sound_run hx').isDone_eq, Bool.not_eq_false', List.isEmpty_iff] at hempty
    have hprefix := hgrows.outcomes_prefix
    rw [hempty, List.prefix_nil] at hprefix
    rw [(sound_run hx).isDone_eq, hprefix] at hdone
    cases hdone

end System

end Deferral
