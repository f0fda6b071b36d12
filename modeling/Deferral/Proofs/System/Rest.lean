import Deferral.Proofs.System.Abandonment
import Deferral.System.Settle

/-!
# Coming to rest

A scheduler that always takes the next action comes to rest: every action of a reservation takes
away from the effort that the reservation has still to make, and what it hands on to a nested
reservation is less than that. What `settle` allows for is enough, so after it nothing is left to be
done until time passes or a caller does something.

Main statements:
* `effort_act_lt`: every action that is next takes away from the effort.
* `next?_settle`: after settling there is no next action.
-/

namespace Deferral

variable {V : Type}

/-! ## Totals -/

namespace System

theorem total_append (l l' : List Nat) : total (l ++ l') = total l + total l' := by
  induction l with
  | nil => rw [List.nil_append, total, Nat.zero_add]
  | cons n l ih => rw [List.cons_append, total, total, ih, Nat.add_assoc]

/-- The total does not grow with what no entry grows by. -/
theorem total_map_le {α : Type} {f g : α → Nat} {l l' : List α} (hlength : l'.length = l.length)
    (hle : ∀ (q : Nat) y y', l[q]? = some y → l'[q]? = some y' → g y' ≤ f y) :
    total (l'.map g) ≤ total (l.map f) := by
  induction l generalizing l' with
  | nil =>
    rw [List.length_eq_zero_iff.mp hlength]
    exact Nat.le_refl _
  | cons y l ih =>
    cases l' with
    | nil => cases hlength
    | cons y' l' =>
      exact Nat.add_le_add (hle 0 y y' rfl rfl)
        (ih (Nat.succ.inj hlength) fun q z z' hz hz' => hle (q + 1) z z' hz hz')

/-- Totals over lists of which all entries but one do not grow. -/
theorem total_map_add_le {α : Type} {f g : α → Nat} {l l' : List α} (hlength : l'.length = l.length)
    {r : Nat} {x x' : α} (hx : l[r]? = some x) (hx' : l'[r]? = some x')
    (hle : ∀ q y y', q ≠ r → l[q]? = some y → l'[q]? = some y' → g y' ≤ f y) :
    total (l'.map g) + f x ≤ total (l.map f) + g x' := by
  induction l generalizing l' r with
  | nil => cases hx
  | cons y l ih =>
    obtain ⟨y', l', rfl⟩ : ∃ y' m, l' = y' :: m := by
      cases l' with
      | nil => cases hlength
      | cons y' m => exact ⟨y', m, rfl⟩
    have hlength' : l'.length = l.length := Nat.succ.inj hlength
    simp only [List.map_cons, total]
    -- The entry that may grow is the first one, or is among those after it.
    cases r with
    | zero =>
      obtain rfl := Option.some.inj hx
      obtain rfl := Option.some.inj hx'
      have htail : total (l'.map g) ≤ total (l.map f) :=
        total_map_le hlength' fun q z z' => hle (q + 1) z z' (Nat.succ_ne_zero q)
      omega
    | succ r =>
      have hhead : g y' ≤ f y := hle 0 y y' (Nat.succ_ne_zero r).symm rfl rfl
      have htail := ih hlength' hx hx' fun q z z' hq hz hz' =>
        hle (q + 1) z z' (fun h => hq (Nat.succ.inj h)) hz hz'
      omega

end System

/-! ## Looking -/

namespace Cell

variable {W A : Type}

/-- Fetching is answered exactly if the outcome has been published. -/
theorem take?_isSome (spent : A) (c : Cell W A) : (c.take? spent).2.isSome = c.isDone := by
  unfold take? isDone
  cases c.slot <;> rfl

/-- A poll is answered exactly if the outcome has been published. -/
theorem poll_isSome [Wakes W] (spent : A) (w : W) (c : Cell W A) :
    (c.poll spent w).2.isSome = c.isDone := by
  unfold poll take? isDone
  cases c.slot <;> rfl

end Cell

namespace Consumer

variable {c : Consumer V}

/-- A look finds something exactly if a poll or a blocking operation would be answered. -/
theorem look_isSome (w : Waker) (c : Consumer V) : (c.look w).2.isSome = c.isReady := by
  have hpoll := Cell.poll_isSome spent w c.cell
  have htake := Cell.take?_isSome spent c.cell
  have hreceive := Channel.receive_isSome w c.channel
  unfold look poll fetch isReady
  rcases hhandle : c.handle with _ | _ | stage | stage | stage | purpose | live | _
  case mono =>
    rcases stage with _ | _ | _
    · rfl
    · dsimp only
      rw [← hpoll]
      split <;> simp [*]
    · rfl
  case maybe =>
    rcases stage with _ | _ | _
    · rfl
    · dsimp only
      rw [← hpoll]
      split <;> simp [*]
    · rfl
  case stream =>
    rcases stage with _ | _ | _
    · rfl
    · simpa using hreceive
    · rfl
  case waiting =>
    dsimp only
    rw [← htake]
    split <;> simp [*]
  case future => simpa using hpoll
  all_goals rfl

/-- What can be received is still there when a callback is invoked. -/
theorem isReady_channel_invoke (callback : Callback) (o : Outcome V)
    (h : c.channel.isReady = true) : (invoke callback o c).channel.isReady = true := by
  cases callback with
  | report => exact h
  | forward => simp [invoke, wake, Channel.sendLast, Channel.isReady]

/-- A handle that would be answered is so as long as the outcome, or what stands for
it, is there. -/
theorem isReady_mono {c' : Consumer V} (hhandle : c'.handle = c.handle)
    (hcell : c.cell.isDone = true → c'.cell.isDone = true)
    (hchannel : c.channel.isReady = true → c'.channel.isReady = true) (h : c.isReady = true) :
    c'.isReady = true := by
  unfold isReady at h ⊢
  rw [hhandle]
  split at h
  next => exact hchannel h
  next => rfl
  next => rfl
  next => exact hcell h
  next => exact hcell h
  next => exact hcell h
  next => exact hcell h
  next => cases h

/-- What is there to be looked for is still there when an outcome is published. -/
theorem isReady_publish (o : Outcome V) (h : c.isReady = true) : (c.publish o).isReady = true := by
  refine isReady_mono (handle_publish o c) (fun _ => isDone_publish o c) (fun hready => ?_) h
  unfold publish
  split
  next cell callback o _ => exact isReady_channel_invoke callback o hready
  next => exact hready

/-- What is there to be looked for is still there when a callback is registered. -/
theorem isReady_attach (h : c.isReady = true) : c.attach.isReady = true := by
  refine isReady_mono (handle_attach c) (fun hdone => ?_) (fun hready => ?_) h
  · rw [Cell.isDone, (attach_spends c).isDone_eq]
    exact hdone
  · unfold attach
    split
    next callback _ =>
      unfold register
      split
      next cell o _ => exact isReady_channel_invoke callback o hready
      next => exact hready
    next => exact hready

end Consumer

/-! ## Effort -/

/-- The steps that a computation in this phase may still take, of which `rest` remains; of one that
looks for the result of a nested reservation, if the result is there. -/
def Phase.effort (rest : Computation ScopeId V) (ready : Bool) : Phase → Nat
  | .captured | .ended | .dropped => 0
  | .launching => 16 * rest.size + 8
  | .cleared => 16 * rest.size + 7
  | .queued => 16 * rest.size + 6
  | .active .step => 16 * rest.size + 5
  | .active .closing | .paused (.gate _) | .paused .turn | .paused (.until _) => 16 * rest.size + 4
  -- A computation that looks for a result has handed the effort for it on.
  | .paused (.inner _) => 16 * rest.tail.size + 7
  | .active (.engaged _) => 16 * rest.tail.size + if ready then 6 else 8

/-- What comes after the first step is no longer than all. -/
theorem Computation.size_tail_le {S : Type} (c : Computation S V) : c.tail.size ≤ c.size := by
  cases c <;> simp only [Computation.tail, Computation.size] <;> omega

namespace Phase

/-- No phase stands for more than 16 actions, apart from the steps that remain. -/
theorem effort_le (rest : Computation ScopeId V) (ready : Bool) (phase : Phase) :
    phase.effort rest ready ≤ 16 * rest.size + 8 := by
  have htail := rest.size_tail_le
  unfold effort
  split <;> first | omega | (split <;> omega)

/-- A computation has less to do once the result is there that it looks for. -/
theorem effort_mono (rest : Computation ScopeId V) {ready ready' : Bool}
    (h : ready = true → ready' = true) (phase : Phase) :
    phase.effort rest ready' ≤ phase.effort rest ready := by
  unfold effort
  split <;> first | exact Nat.le_refl _ | skip
  cases ready with
  | false => split <;> simp
  | true => simp [h rfl]

end Phase

namespace Reservation

/-- The last steps of a launch by a computation. -/
def leftover (x : Reservation V) : Nat :=
  if x.parent.isSome then x.holdsScope.toNat + x.consumer.attaching.isSome.toNat else 0

/-- Whether the result that a computation looks for is there. -/
def finds (l : List (Reservation V)) (x : Reservation V) : Bool :=
  match x.phase.awaited? with
  | some c => (l[c]?).any fun z => z.consumer.isReady
  | none => false

/-- The actions that a reservation may still take by itself. -/
def effort (l : List (Reservation V)) (x : Reservation V) : Nat :=
  x.phase.effort x.rest (x.finds l) + x.leftover

theorem leftover_le (x : Reservation V) : x.leftover ≤ 2 := by
  have := x.holdsScope.toNat_le
  have := x.consumer.attaching.isSome.toNat_le
  unfold leftover
  split <;> omega

/-- What the last steps of a launch are depends on what the launch has left. -/
theorem leftover_congr {x x' : Reservation V} (hparent : x'.parent = x.parent)
    (hholds : x'.holdsScope = x.holdsScope)
    (hattaching : x'.consumer.attaching = x.consumer.attaching) : x'.leftover = x.leftover := by
  rw [leftover, leftover, hparent, hholds, hattaching]

/-- Publishing an outcome leaves the last steps of a launch to be taken. -/
theorem leftover_conclude (x : Reservation V) (phase : Phase) (event : Event V) (o : Outcome V) :
    (x.conclude phase event o).leftover = x.leftover :=
  leftover_congr rfl rfl (Consumer.attaching_publish o _)

/-- Dropping the handle of a reservation that was launched leaves it to go on where it is. -/
theorem dropHandle_leaves {x : Reservation V} (h : x.phase ≠ .captured) :
    x.dropHandle.phase = x.phase ∧ x.dropHandle.rest = x.rest ∧
      x.dropHandle.leftover = x.leftover := by
  rw [dropHandle, if_neg h]
  split <;> exact ⟨rfl, rfl, leftover_congr rfl rfl (Consumer.attaching_drop _)⟩

/-- To find a result is easier among more reservations. -/
theorem effort_append_le (x : Reservation V) (l made : List (Reservation V)) :
    x.effort (l ++ made) ≤ x.effort l := by
  refine Nat.add_le_add_right (Phase.effort_mono _ (fun hfinds => ?_) _) _
  unfold finds at hfinds ⊢
  split at hfinds
  next d hd =>
    obtain ⟨z, hz, hready⟩ := (Option.any_eq_true _ _).mp hfinds
    have hlt := (List.getElem?_eq_some_iff.mp hz).1
    exact (Option.any_eq_true _ _).mpr ⟨z, by rw [List.getElem?_append_left hlt, hz], hready⟩
  next => cases hfinds

end Reservation

namespace System

variable {l l' : List (Reservation V)} {r c : ReservationId} {x x' z : Reservation V}

/-- The actions that all reservations together may still take by themselves. -/
def effort (w : System V) : Nat :=
  total (w.reservations.map (Reservation.effort w.reservations))

/-- What a scheduler allows for is enough. -/
theorem effort_le_patience (w : System V) : w.effort ≤ w.patience := by
  refine total_map_le rfl fun _ x x' hx hx' => ?_
  obtain rfl := Option.some.inj (hx.symm.trans hx')
  have hphase := x.phase.effort_le x.rest (x.finds w.reservations)
  have hleftover := x.leftover_le
  unfold Reservation.effort
  omega

/-- The reservation `r` has become `x'` by an action of its own, which leaves the others to go on
where they are. It touches the consumer of another reservation only if that is `touched`. -/
structure Works (l l' : List (Reservation V)) (r : ReservationId) (x x' : Reservation V)
    (touched : Option ReservationId) : Prop where
  /-- Nothing is added. -/
  length_eq : l'.length = l.length
  /-- This is what the reservation has become. -/
  getElem?_eq : l'[r]? = some x'
  /-- The others have still the same to do. -/
  others : ∀ q y y', q ≠ r → l[q]? = some y → l'[q]? = some y' →
    y'.phase = y.phase ∧ y'.rest = y.rest ∧ y'.leftover = y.leftover ∧
      (y'.consumer = y.consumer ∨ touched = some q)
  /-- Its own outcome is still there, if it was. -/
  isReady : x.consumer.isReady = true → x'.consumer.isReady = true

/-- No two computations wait for the same result. -/
def Apart (l : List (Reservation V)) : Prop :=
  ∀ (q q' : ReservationId) (y y' : Reservation V) (d : ReservationId), l[q]? = some y →
    l[q']? = some y' → y.phase.awaited? = some d → y'.phase.awaited? = some d → q = q'

/-- A computation is found by one only that has made it. -/
theorem apart_run (actions : List (Action V)) : Apart (run {} actions : System V).reservations := by
  intro q q' y y' d hy hy' hd hd'
  obtain ⟨access, z, htends⟩ := tended_run actions q y d hy hd
  obtain ⟨access', z', htends'⟩ := tended_run actions q' y' d hy' hd'
  obtain rfl := Option.some.inj (htends.getElem?_eq.symm.trans htends'.getElem?_eq)
  exact Option.some.inj (htends.parent_eq.symm.trans htends'.parent_eq)

namespace Works

variable {touched : Option ReservationId}

/-- What is there to be found is still there, for whoever looks for something that
is not touched. -/
theorem finds (h : Works l l' r x x' touched) (hx : l[r]? = some x) {y y' : Reservation V}
    (hawaits : y'.phase.awaited? = y.phase.awaited?)
    (hfree : ∀ d, y.phase.awaited? = some d → touched ≠ some d) (hfinds : y.finds l = true) :
    y'.finds l' = true := by
  unfold Reservation.finds at hfinds ⊢
  rw [hawaits]
  split at hfinds
  next d hd =>
    obtain ⟨z, hz, hready⟩ := (Option.any_eq_true _ _).mp hfinds
    have hlt : d < l'.length := h.length_eq ▸ (List.getElem?_eq_some_iff.mp hz).1
    have hz' := List.getElem?_eq_getElem hlt
    refine (Option.any_eq_true _ _).mpr ⟨l'[d], hz', ?_⟩
    -- It is the one that has changed, which stays ready, or another one that was not touched.
    by_cases hdr : d = r
    · subst hdr
      obtain rfl := Option.some.inj (hx.symm.trans hz)
      obtain rfl : x' = l'[d] := Option.some.inj (h.getElem?_eq.symm.trans hz')
      exact h.isReady hready
    · obtain ⟨-, -, -, hconsumer⟩ := h.others d z l'[d] hdr hz hz'
      rw [hconsumer.resolve_right (hfree d hd)]
      exact hready
  next => cases hfinds

/-- What a reservation does by itself takes away from the effort of all what it takes away from its
own. -/
theorem effort_add_le (h : Works l l' r x x' touched) (hx : l[r]? = some x) (hapart : Apart l)
    (htouched : ∀ d, touched = some d → x.phase.awaited? = some d) :
    total (l'.map (Reservation.effort l')) + x.effort l ≤
      total (l.map (Reservation.effort l)) + x'.effort l' := by
  refine total_map_add_le h.length_eq hx h.getElem?_eq fun q y y' hq hy hy' => ?_
  obtain ⟨hphase, hrest, hleftover, -⟩ := h.others q y y' hq hy hy'
  have hfinds : y.finds l = true → y'.finds l' = true :=
    h.finds hx (congrArg _ hphase) fun d hd htouch =>
      hq (hapart q r y x d hy hx hd (htouched d htouch))
  unfold Reservation.effort
  rw [hphase, hrest, hleftover]
  exact Nat.add_le_add_right (Phase.effort_mono _ hfinds _) _

/-- A change of one reservation leaves the others to go on where they are. -/
theorem of_modify (hx : l[r]? = some x) {f : Reservation V → Reservation V}
    (hready : x.consumer.isReady = true → (f x).consumer.isReady = true) :
    Works l (l.modify r f) r x (f x) none where
  length_eq := List.length_modify ..
  getElem?_eq := by
    rw [List.getElem?_modify_eq, hx]
    rfl
  others q y y' hq hy hy' := by
    rw [List.getElem?_modify_ne _ _ hq.symm] at hy'
    obtain rfl := Option.some.inj (hy.symm.trans hy')
    exact ⟨rfl, rfl, rfl, .inl rfl⟩
  isReady := hready

/-- A change of the consumer of a reservation that is looked for leaves it to go on where it is. -/
theorem of_modify_touched (hx : l[r]? = some x) (hne : c ≠ r) (hz : l[c]? = some z)
    {f g : Reservation V → Reservation V}
    (hg : (g z).phase = z.phase ∧ (g z).rest = z.rest ∧ (g z).leftover = z.leftover)
    (hready : x.consumer.isReady = true → (f x).consumer.isReady = true) :
    Works l ((l.modify c g).modify r f) r x (f x) (some c) where
  length_eq := by rw [List.length_modify, List.length_modify]
  getElem?_eq := by
    rw [List.getElem?_modify_eq, List.getElem?_modify_ne _ _ hne, hx]
    rfl
  others q y y' hq hy hy' := by
    rw [List.getElem?_modify_ne _ _ hq.symm] at hy'
    by_cases hqc : c = q
    · subst hqc
      rw [List.getElem?_modify_eq, hz] at hy'
      obtain rfl := Option.some.inj (hz.symm.trans hy)
      obtain rfl := Option.some.inj hy'
      exact ⟨hg.1, hg.2.1, hg.2.2, .inr rfl⟩
    · rw [List.getElem?_modify_ne _ _ hqc] at hy'
      obtain rfl := Option.some.inj (hy.symm.trans hy')
      exact ⟨rfl, rfl, rfl, .inl rfl⟩
  isReady := hready

end Works

/-! ## Actions -/

section

variable {w w' : System V}

/-- An action by which a reservation takes away from its own effort takes away from that of all. -/
theorem effort_lt_of_works {touched : Option ReservationId}
    (h : Works w.reservations w'.reservations r x x' touched) (hx : w.reservations[r]? = some x)
    (hapart : Apart w.reservations) (htouched : ∀ d, touched = some d → x.phase.awaited? = some d)
    (hlt : x'.effort w'.reservations < x.effort w.reservations) : w'.effort < w.effort := by
  have hle := h.effort_add_le hx hapart htouched
  unfold effort
  omega

variable (hx : w.reservations[r]? = some x) (hapart : Apart w.reservations)

include hx hapart

/-- So does one that touches the consumer of the reservation that it looks for. -/
theorem effort_lt_of_touched {f g : Reservation V → Reservation V}
    (hw' : w'.reservations = (w.reservations.modify c g).modify r f) (hne : c ≠ r)
    (hz : w.reservations[c]? = some z) (hawaits : x.phase.awaited? = some c)
    (hg : (g z).phase = z.phase ∧ (g z).rest = z.rest ∧ (g z).leftover = z.leftover)
    (hready : x.consumer.isReady = true → (f x).consumer.isReady = true)
    (hlt : (f x).effort w'.reservations < x.effort w.reservations) : w'.effort < w.effort := by
  have hworks : Works w.reservations w'.reservations r x (f x) (some c) :=
    hw' ▸ Works.of_modify_touched hx hne hz hg hready
  exact effort_lt_of_works hworks hx hapart (fun d hd => hawaits.trans hd) hlt

/-- An action that only carries a reservation on to a phase with less to do takes away from the
effort. -/
theorem effort_lt_of_modify {f : Reservation V → Reservation V}
    (hw' : w'.reservations = w.reservations.modify r f)
    (hready : x.consumer.isReady = true → (f x).consumer.isReady = true)
    (hleftover : (f x).leftover = x.leftover)
    (hlt : ∀ ready ready', (f x).phase.effort (f x).rest ready' < x.phase.effort x.rest ready) :
    w'.effort < w.effort := by
  have hworks : Works w.reservations w'.reservations r x (f x) none :=
    hw' ▸ Works.of_modify hx hready
  refine effort_lt_of_works hworks hx hapart (fun _ h => by cases h) ?_
  unfold Reservation.effort
  rw [hleftover]
  exact Nat.add_lt_add_right (hlt ..) _

/-- A computation that is over has nothing left to do. -/
theorem effort_concludeWith_lt {phase : Phase} (hover : phase.isOver = true) (event : Event V)
    (o : Outcome V) (hpos : ∀ ready, 0 < x.phase.effort x.rest ready) :
    (w.concludeWith r phase event o).effort < w.effort := by
  refine effort_lt_of_modify hx hapart (reservations_concludeWith ..) (Consumer.isReady_publish o)
    (x.leftover_conclude phase event o) fun ready ready' => ?_
  have hzero : phase.effort x.rest ready' = 0 := by
    cases phase <;> first | rfl | cases hover
  exact hzero ▸ hpos ready

/-- A launch that looks at the scope has a step less to take. -/
theorem effort_testClosed_lt (hphase : x.phase = .launching) :
    (w.testClosed r).effort < w.effort := by
  simp only [testClosed, hx, if_pos hphase]
  split
  · refine effort_concludeWith_lt hx hapart rfl _ _ fun ready => ?_
    rw [hphase]
    exact Nat.succ_pos _
  · refine effort_lt_of_modify hx hapart rfl id rfl fun ready ready' => ?_
    rw [hphase]
    exact Nat.lt_succ_self _

/-- A launch that hands the computation on has a step less to take. -/
theorem effort_spawn_lt (hphase : x.phase = .cleared) : (w.spawn r).effort < w.effort := by
  simp only [spawn, hx, if_pos hphase]
  split
  · refine effort_lt_of_modify hx hapart rfl id rfl fun ready ready' => ?_
    rw [hphase]
    exact Nat.lt_succ_self _
  · refine effort_lt_of_modify (f := fun x => { x with spawned := true }.conclude .dropped .dropped
      (.error .cancelled)) hx hapart ?_ (Consumer.isReady_publish _)
      ({ x with spawned := true }.leftover_conclude _ _ _) fun ready ready' => ?_
    · rw [reservations_concludeWith, reservations_update, List.modify_modify_eq]
      rfl
    · rw [hphase]
      exact Nat.succ_pos _

/-- A launch by a computation that has got past handing it on has a step less to take. -/
theorem effort_lt_of_leftover {f : Reservation V → Reservation V}
    (hw' : w'.reservations = w.reservations.modify r f)
    (hready : x.consumer.isReady = true → (f x).consumer.isReady = true)
    (hphase : (f x).phase = x.phase) (hrest : (f x).rest = x.rest)
    (hlt : (f x).leftover < x.leftover) : w'.effort < w.effort := by
  have hworks : Works w.reservations w'.reservations r x (f x) none :=
    hw' ▸ Works.of_modify hx hready
  refine effort_lt_of_works hworks hx hapart (fun _ h => by cases h) ?_
  have hfinds : x.finds w.reservations = true → (f x).finds w'.reservations = true :=
    hworks.finds hx (congrArg _ hphase) fun _ _ h => by cases h
  unfold Reservation.effort
  rw [hphase, hrest]
  exact Nat.add_lt_add_of_le_of_lt (Phase.effort_mono _ hfinds _) hlt

/-- A launch that drops its reference to the scope has a step less to take. -/
theorem effort_letGo_lt (hparent : x.parent.isSome = true) (hlaunched : x.phase.isLaunched = true)
    (hholds : x.holdsScope = true) : (w.letGo r).effort < w.effort := by
  refine effort_lt_of_leftover hx hapart (reservations_letGo ..) id rfl rfl ?_
  simp [Reservation.leftover, hparent, hlaunched, hholds]

/-- A launch that registers the callback has a step less to take. -/
theorem effort_attach_lt (hparent : x.parent.isSome = true) (hlaunched : x.phase.isLaunched = true)
    (hattaching : x.consumer.attaching.isSome = true) : (w.attach r).effort < w.effort := by
  simp only [attach, hx, if_pos hlaunched]
  refine effort_lt_of_leftover hx hapart
    (f := fun x => { x with consumer := x.consumer.attach }) rfl Consumer.isReady_attach rfl rfl ?_
  simp [Reservation.leftover, hparent, hattaching, Consumer.attaching_attach]

/-- A step that is over is a step less to take. -/
theorem effort_advance_lt (step : List ScopeId) {rest : Computation ScopeId V}
    (events : List (Event V))
    (hlt : ∀ ready, 16 * rest.size + 5 < x.phase.effort x.rest ready) :
    (w.advance r step rest events).effort < w.effort := by
  refine effort_lt_of_modify hx hapart (f := fun x =>
    { x with rest, position := x.position + 1, phase := .active .step,
             events := x.events ++ events })
    ?_ id rfl fun ready _ => hlt ready
  rw [advance, reservations_releaseAll, reservations_update]

/-- A task that goes on to a phase with less to do takes away from the effort. -/
theorem effort_setPhase_lt {phase : Phase}
    (hlt : ∀ ready ready', phase.effort x.rest ready' < x.phase.effort x.rest ready) :
    (w.setPhase r phase).effort < w.effort :=
  effort_lt_of_modify hx hapart rfl id rfl hlt

/-- A task that is started has a step less to take. -/
theorem effort_resume_lt_of_queued (hphase : x.phase = .queued) (hdoomed : w.isDoomed x = false) :
    (w.resume r).effort < w.effort := by
  simp only [resume, hx, hdoomed, hphase, Bool.false_eq_true, if_false]
  refine effort_lt_of_modify (f := fun x =>
    { x with phase := .active .step, events := x.events ++ [.start] }) hx hapart rfl id rfl
    fun ready ready' => ?_
  rw [hphase]
  exact Nat.lt_succ_self _

/-- A task that goes on after what it was waiting for has a step less to take. -/
theorem effort_resume_lt_of_paused {pause : Pause} (hphase : x.phase = .paused pause)
    (hdoomed : w.isDoomed x = false) (hdue : w.isDue pause = true) (hfits : pause.Fits x.rest) :
    (w.resume r).effort < w.effort := by
  simp only [resume, hx, hdoomed, hphase, hdue, Bool.false_eq_true, if_false, if_true]
  cases pause with
  | gate g =>
    obtain ⟨rest, hrest⟩ := hfits
    rw [hrest]
    refine effort_advance_lt hx hapart [] _ fun ready => ?_
    rw [hphase, hrest, Phase.effort, Computation.size]
    omega
  | turn =>
    obtain ⟨rest, hrest⟩ := hfits
    rw [hrest]
    refine effort_advance_lt hx hapart [] _ fun ready => ?_
    rw [hphase, hrest, Phase.effort, Computation.size]
    omega
  | «until» t =>
    obtain ⟨d, rest, hrest⟩ := hfits
    rw [hrest]
    refine effort_advance_lt hx hapart [] _ fun ready => ?_
    rw [hphase, hrest, Phase.effort, Computation.size]
    omega
  | inner c =>
    -- It goes on because the result is there, so there is less to do than without.
    have hfinds : x.finds w.reservations = true := by
      rw [Reservation.finds, hphase]
      exact hdue
    have hworks := Works.of_modify (f := fun x => { x with phase := .active (.engaged c) }) hx id
    have hfinds' : ({ x with phase := .active (.engaged c) } : Reservation V).finds
        (w.setPhase r (.active (.engaged c))).reservations = true :=
      hworks.finds hx (by rw [hphase]; rfl) (fun _ _ h => by cases h) hfinds
    show (w.setPhase r (.active (.engaged c))).effort < w.effort
    refine effort_lt_of_works hworks hx hapart (fun _ h => by cases h) (Nat.add_lt_add_right ?_ _)
    rw [hphase, hfinds']
    exact Nat.lt_succ_self _

/-- A doomed task that is dropped has nothing left to do. -/
theorem effort_dropTask_lt (hsuspended : x.phase.isSuspended = true) (hdoomed : w.isDoomed x = true)
    (hinner : ∀ c, x.phase = .paused (.inner c) →
      c ≠ r ∧ ∃ z, w.reservations[c]? = some z ∧ z.phase ≠ .captured) :
    (w.dropTask r).effort < w.effort := by
  have hpos (ready : Bool) : 0 < x.phase.effort x.rest ready := by
    rcases Phase.eq_of_isSuspended hsuspended with hphase | ⟨pause, hphase⟩
    · rw [hphase]
      exact Nat.succ_pos _
    · rw [hphase]
      cases pause <;> exact Nat.succ_pos _
  simp only [dropTask, hx, if_pos hdoomed]
  rcases Phase.eq_of_isSuspended hsuspended with hphase | ⟨pause, hphase⟩
  · rw [hphase]
    exact effort_concludeWith_lt hx hapart rfl _ _ hpos
  · rw [hphase]
    cases pause with
    | gate | turn | «until» => exact effort_concludeWith_lt hx hapart rfl _ _ hpos
    | inner c =>
      -- Two reservations change: its own, and the one whose handle it drops.
      obtain ⟨hne, z, hz, hcaptured⟩ := hinner c hphase
      refine effort_lt_of_touched
        (f := Reservation.conclude .dropped .dropped (.error .cancelled)) hx
        hapart ?_ hne hz (by rw [hphase]; rfl) (Reservation.dropHandle_leaves hcaptured)
        (Consumer.isReady_publish _) ?_
      · rw [reservations_concludeWith, reservations_dropHandle]
      · rw [Reservation.effort, Reservation.effort, Reservation.leftover_conclude]
        exact Nat.add_lt_add_right (hpos _) _

/-- A task that makes a nested reservation hands on less than it has to do. -/
theorem effort_takeStep_lt_of_await (hphase : x.phase = .active .step) {access : Access}
    {s : ScopeId} {inner rest : Computation ScopeId V}
    (hrest : x.rest = .await access s inner rest) :
    (w.takeStep r x).effort < w.effort := by
  have hworks := Works.of_modify (f := fun x =>
    { x with phase := .active (.engaged w.reservations.length) }) hx id
  have hle := hworks.effort_add_le hx hapart fun _ h => by cases h
  have hbefore : x.effort w.reservations = 16 * (inner.size + rest.size + 1) + 5 + x.leftover := by
    rw [Reservation.effort, hphase, hrest]
    rfl
  have hafter (ready : Bool) : (Phase.active (.engaged w.reservations.length)).effort x.rest ready ≤
      16 * rest.size + 8 := by
    rw [hrest, Phase.effort, Computation.tail]
    split <;> omega
  rw [effort, effort, reservations_takeStep_await hrest hx, setPhase, reservations_update]
  -- The others have no more to do among one reservation more.
  have hothers (l made : List (Reservation V)) :
      total (l.map (Reservation.effort (l ++ made))) ≤ total (l.map (Reservation.effort l)) := by
    refine total_map_le rfl fun _ y y' hy hy' => ?_
    obtain rfl := Option.some.inj (hy.symm.trans hy')
    exact y.effort_append_le l made
  rw [List.map_append, total_append, List.map_singleton, total, total, Nat.add_zero]
  refine Nat.lt_of_le_of_lt (Nat.add_le_add_right (hothers ..) _) ?_
  generalize hl : w.reservations.modify r _ = l' at hle ⊢
  have hmade (y : Reservation V) (hy : y.rest = inner) (l : List (Reservation V)) :
      y.effort l ≤ 16 * inner.size + 10 := by
    have hphase := y.phase.effort_le y.rest (y.finds l)
    have hleftover := y.leftover_le
    rw [hy] at hphase
    rw [Reservation.effort, hy]
    omega
  have hturned := Nat.add_le_add_right (hafter
    ({ x with phase := .active (.engaged w.reservations.length) }.finds l')) x.leftover
  refine Nat.lt_of_le_of_lt (Nat.add_le_add_left (hmade _ rfl _) _) ?_
  rw [hbefore] at hle
  have hlast := Nat.le_trans hle (Nat.add_le_add_left hturned _)
  omega

/-- A task that takes a step has less to do, even if by the step it makes a nested reservation. -/
theorem effort_takeStep_lt (hphase : x.phase = .active .step) :
    (w.takeStep r x).effort < w.effort := by
  -- What there is to do before a step, and after one that is over.
  have hbefore (ready : Bool) : x.phase.effort x.rest ready = 16 * x.rest.size + 5 := by
    rw [hphase]
    rfl
  have hadvance (step : List ScopeId) (events : List (Event V)) {rest : Computation ScopeId V}
      (hrest : rest.size < x.rest.size) : (w.advance r step rest events).effort < w.effort :=
    effort_advance_lt hx hapart step events fun ready => by
      rw [hbefore]
      omega
  have hfinish (phase : Phase) (hover : phase.isOver = true) (event : Event V) (o : Outcome V) :
      (w.concludeWith r phase event o).effort < w.effort :=
    effort_concludeWith_lt hx hapart hover event o fun ready => by
      rw [hbefore]
      exact Nat.succ_pos _
  have hpause (phase : Phase) (heq : ∀ ready, phase.effort x.rest ready = 16 * x.rest.size + 4) :
      (w.setPhase r phase).effort < w.effort :=
    effort_setPhase_lt hx hapart fun ready ready' => by
      rw [hbefore, heq]
      exact Nat.lt_succ_self _
  unfold takeStep
  rcases hrest : x.rest with e | ⟨g, rest⟩ | ⟨v, rest⟩ | rest | ⟨d, rest⟩ | rest | ⟨s, rest⟩ |
    ⟨s, rest⟩ | ⟨access, s, inner, rest⟩
  case finish =>
    cases e with
    | value v => exact hfinish _ rfl _ _
    | panic p => exact hfinish _ rfl _ _
  case gate =>
    dsimp only
    split
    · exact hadvance [] _ (by rw [hrest, Computation.size]; omega)
    · exact hpause _ fun _ => rfl
  case mark => exact hadvance [] _ (by rw [hrest, Computation.size]; omega)
  case yield => exact hpause _ fun _ => rfl
  case sleep => exact hpause _ fun _ => rfl
  case thread =>
    dsimp only
    split
    · exact hadvance [] _ (by rw [hrest, Computation.size]; omega)
    · exact hadvance [] _ (by rw [hrest, Computation.size]; omega)
  case shutdown =>
    dsimp only
    split
    · exact hadvance [s] _ (by rw [hrest, Computation.size]; omega)
    · refine effort_lt_of_modify (f := fun x => { x with phase := .active .closing }) hx
        hapart ?_ id rfl fun ready ready' => ?_
      · rw [setPhase, reservations_update, reservations_beginShutdown]
      · rw [hbefore]
        exact Nat.lt_succ_self _
  case dropScope => exact hadvance [s] _ (by rw [hrest, Computation.size]; omega)
  case await =>
    have hmade := effort_takeStep_lt_of_await hx hapart hphase hrest
    simpa only [takeStep, hrest] using hmade

/-- A task that looks for the result of a nested reservation has a step less to take, whether the
result is there or not. -/
theorem effort_engage_lt {access : Access} {s : ScopeId} {inner rest : Computation ScopeId V}
    (hphase : x.phase = .active (.engaged c)) (hrest : x.rest = .await access s inner rest)
    (hne : c ≠ r) (hz : w.reservations[c]? = some z) (hcaptured : z.phase ≠ .captured)
    (hready : access.blocks = true → z.consumer.isReady = true) :
    (w.engage r c access s inner rest).effort < w.effort := by
  have hfinds : x.finds w.reservations = z.consumer.isReady := by
    simp only [Reservation.finds, hphase, Phase.awaited?, hz, Option.any_some]
  have hawaits : x.phase.awaited? = some c := by
    rw [hphase]
    rfl
  rw [engage_eq hz]
  extract_lets looked w'
  have hlook : looked.2.isSome = z.consumer.isReady := Consumer.look_isSome ..
  have hattaching : looked.1.attaching = z.consumer.attaching := Consumer.attaching_look ..
  split
  next d hd =>
    -- The result is there: the task drops the handle and goes on.
    rw [hd, Option.isSome_some] at hlook
    obtain ⟨hphase', hrest', hleftover⟩ :=
      Reservation.dropHandle_leaves (x := { z with consumer := looked.1 }) hcaptured
    refine effort_lt_of_touched hx hapart
      (g := fun y => Reservation.dropHandle { y with consumer := looked.1 })
      (f := fun x =>
        { x with rest, position := x.position + 1, phase := .active .step,
                 events := x.events ++ [.inner d] }) ?_ hne hz hawaits
      ⟨hphase', hrest', hleftover.trans (Reservation.leftover_congr rfl rfl hattaching)⟩ id
      (Nat.add_lt_add_right ?_ _)
    · rw [advance, reservations_releaseAll, reservations_update, reservations_dropHandle]
      unfold w' updateConsumer
      rw [reservations_update, List.modify_modify_eq]
      rfl
    · rw [hfinds, ← hlook, hphase, hrest]
      exact Nat.lt_succ_self _
  next hnone =>
    -- It is not there. Then the access does not block, and the task is suspended until it is woken.
    rw [hnone, Option.isSome_none] at hlook
    have hblocks : access.blocks = false := by
      by_contra hblocks
      rw [hready (by simpa using hblocks)] at hlook
      cases hlook
    rw [hblocks]
    refine effort_lt_of_touched hx hapart (g := fun y => { y with consumer := looked.1 })
      (f := fun x => { x with phase := .paused (.inner c) }) rfl hne hz hawaits
      ⟨rfl, rfl, Reservation.leftover_congr rfl rfl hattaching⟩ id (Nat.add_lt_add_right ?_ _)
    rw [hfinds, ← hlook, hphase, hrest]
    exact Nat.lt_succ_self _

end

/-! ## Runs -/

/-- What the computation is paused for, or about to finish, belongs to its next step. -/
structure Placed (x : Reservation V) : Prop where
  /-- What it waits for belongs to its next step. -/
  fits : ∀ pause, x.phase = .paused pause → pause.Fits x.rest
  /-- It finishes a shutdown that is its next step. -/
  closing : x.phase = .active .closing → ∃ s rest, x.rest = .shutdown s rest

/-- No change leads a computation away from its next step. -/
theorem Change.placed {w : System V} {a : Action V} (h : w.Change r a x x') (hx : Placed x) :
    Placed x' := by
  cases h with
  | handle | attach | letGo | abort => exact ⟨hx.fits, hx.closing⟩
  | pause pause _ hfits =>
    refine ⟨fun pause' hpause => ?_, nofun⟩
    obtain rfl := Phase.paused.inj hpause
    exact hfits
  | engage activity _ _ _ hclosing =>
    exact ⟨nofun, fun hphase => hclosing (Phase.active.inj hphase)⟩
  | _ => exact ⟨nofun, nofun⟩

/-- In every run, what a computation waits for belongs to its next step. -/
theorem placed_run {actions : List (Action V)} (h : (run {} actions).reservations[r]? = some x) :
    Placed x := by
  refine forall_run (fun w a x hnew => ?_) (fun _ _ _ _ _ hchange => hchange.placed) h
  cases hnew <;> exact ⟨nofun, nofun⟩

/-- In every run, what a computation waits for is another reservation, which was launched. -/
theorem exists_awaited {actions : List (Action V)} (hx : (run {} actions).reservations[r]? = some x)
    (hawaits : x.phase.awaited? = some c) :
    c ≠ r ∧ ∃ access z, (run {} actions).Tends r x c access z ∧ z.phase ≠ .captured := by
  obtain ⟨access, z, htends⟩ := tended_run actions r x c hx hawaits
  have hlt := parent_lt_run htends.getElem?_eq htends.parent_eq
  have hparent : z.parent ≠ none := by
    rw [htends.parent_eq]
    nofun
  exact ⟨Nat.ne_of_gt hlt, access, z, htends, (started_run htends.getElem?_eq).ne_captured hparent⟩

/-- A task that has a thread takes a step towards its end. -/
theorem effort_step_lt {actions : List (Action V)} {activity : Activity}
    (hx : (run {} actions).reservations[r]? = some x) (hphase : x.phase = .active activity)
    (hcan : (run {} actions).canStep x = true) :
    ((run {} actions).step r).effort < (run {} actions : System V).effort := by
  have hapart := apart_run actions
  -- A task takes a step of its own, finishes a shutdown, or looks for what it waits for.
  cases activity with
  | step =>
    have hstep : (run {} actions).step r = (run {} actions).takeStep r x := by
      simp [step, hx, hcan, hphase]
    rw [hstep]
    exact effort_takeStep_lt hx hapart hphase
  | closing =>
    obtain ⟨s, rest, hrest⟩ := (placed_run hx).closing hphase
    have hstep :
        (run {} actions).step r = ((run {} actions).finishShutdown s).advance r [s] rest [] := by
      simp [step, hx, hcan, hphase, hrest]
    rw [hstep]
    refine effort_lt_of_modify (f := fun x => { x with
      rest, position := x.position + 1, phase := .active .step, events := x.events ++ [] })
      hx hapart ?_ id rfl fun ready ready' => ?_
    · rw [advance, reservations_releaseAll, reservations_update, reservations_finishShutdown]
    · rw [hphase, hrest]
      show 16 * rest.size + 5 < 16 * (rest.size + 1) + 4
      omega
  | engaged c =>
    obtain ⟨hne, access, z, htends, hcaptured⟩ := exists_awaited hx (by rw [hphase]; rfl)
    obtain ⟨rest, hrest⟩ := htends.rest_eq
    rw [step_of_engaged hx hphase hrest hcan]
    refine effort_engage_lt hx hapart hphase hrest hne htends.getElem?_eq hcaptured
      fun hblocks => ?_
    simp only [canStep, hphase, hrest, htends.getElem?_eq, Option.any_some, hblocks, Bool.not_true,
      Bool.false_or, Bool.and_eq_true] at hcan
    exact hcan.2

/-- What a reservation can do next by itself. -/
inductive Next (w : System V) (x : Reservation V) (r : ReservationId) : Action V → Prop
  /-- Its launch looks whether the scope is closed. -/
  | testClosed (hphase : x.phase = .launching) : Next w x r (.testClosed r)
  /-- Its launch hands the computation to the pool. -/
  | spawn (hphase : x.phase = .cleared) : Next w x r (.spawn r)
  /-- Its launch drops the reference to the scope. -/
  | letGo (hparent : x.parent.isSome = true) (hlaunched : x.phase.isLaunched = true)
      (hholds : x.holdsScope = true) : Next w x r (.letGo r)
  /-- Its launch registers the callback. -/
  | attach (hparent : x.parent.isSome = true) (hlaunched : x.phase.isLaunched = true)
      (hattaching : x.consumer.attaching.isSome = true) : Next w x r (.attach r)
  /-- Its task is dropped. -/
  | dropTask (hsuspended : x.phase.isSuspended = true) (hdoomed : w.isDoomed x = true) :
      Next w x r (.dropTask r)
  /-- Its task gets a thread for the first time. -/
  | start (hphase : x.phase = .queued) (hspared : w.isDoomed x = false) : Next w x r (.resume r)
  /-- Its task gets a thread again. -/
  | resume {pause : Pause} (hphase : x.phase = .paused pause) (hspared : w.isDoomed x = false)
      (hdue : w.isDue pause = true) : Next w x r (.resume r)
  /-- Its task takes a step. -/
  | step {activity : Activity} (hphase : x.phase = .active activity) (hcan : w.canStep x = true) :
      Next w x r (.step r)

/-- What is next is one of these actions. -/
theorem next_of_nextAction? {w : System V} {a : Action V} (h : w.nextAction? x r = some a) :
    w.Next x r a := by
  simp only [nextAction?, Bool.and_eq_true, decide_eq_true_eq] at h
  split at h
  next hcase => exact Option.some.inj h ▸ .testClosed hcase.2
  split at h
  next hcase => exact Option.some.inj h ▸ .spawn hcase.2
  split at h
  next hcase => exact Option.some.inj h ▸ .letGo hcase.1.1 hcase.1.2 hcase.2
  split at h
  next hcase => exact Option.some.inj h ▸ .attach hcase.1.1 hcase.1.2 hcase.2
  split at h
  next hphase =>
    split at h
    next hdoomed => exact Option.some.inj h ▸ .dropTask (by rw [hphase]; rfl) hdoomed
    next hdoomed => exact Option.some.inj h ▸ .start hphase (Bool.eq_false_iff.mpr hdoomed)
  next pause hphase =>
    split at h
    next hdoomed => exact Option.some.inj h ▸ .dropTask (by rw [hphase]; rfl) hdoomed
    next hdoomed =>
      split at h
      next hdue => exact Option.some.inj h ▸ .resume hphase (Bool.eq_false_iff.mpr hdoomed) hdue
      next => cases h
  next activity hphase =>
    split at h
    next hcan => exact Option.some.inj h ▸ .step hphase hcan
    next => cases h
  next => cases h

/-- The action that is next is one that a reservation can take. -/
theorem exists_next {w : System V} {a : Action V} (h : w.next? = some a) :
    ∃ r x, w.reservations[r]? = some x ∧ w.Next x r a := by
  obtain ⟨⟨x, r⟩, hmem, ha⟩ := List.exists_of_findSome?_eq_some h
  exact ⟨r, x, List.mem_zipIdx_iff_getElem?.mp hmem, next_of_nextAction? ha⟩

/-- In every run, an action that is next takes away from the effort. -/
theorem effort_act_lt {actions : List (Action V)} {a : Action V}
    (h : (run {} actions).next? = some a) :
    ((run {} actions).act a).effort < (run {} actions : System V).effort := by
  obtain ⟨r, x, hx, hnext⟩ := exists_next h
  have hapart := apart_run actions
  cases hnext with
  | testClosed hphase => exact effort_testClosed_lt hx hapart hphase
  | spawn hphase => exact effort_spawn_lt hx hapart hphase
  | letGo hparent hlaunched hholds => exact effort_letGo_lt hx hapart hparent hlaunched hholds
  | attach hparent hlaunched hattaching =>
    exact effort_attach_lt hx hapart hparent hlaunched hattaching
  | dropTask hsuspended hdoomed =>
    refine effort_dropTask_lt hx hapart hsuspended hdoomed fun c hphase => ?_
    obtain ⟨hne, access, z, htends, hcaptured⟩ := exists_awaited hx (by rw [hphase]; rfl)
    exact ⟨hne, z, htends.getElem?_eq, hcaptured⟩
  | start hphase hspared => exact effort_resume_lt_of_queued hx hapart hphase hspared
  | @resume pause hphase hspared hdue =>
    exact effort_resume_lt_of_paused hx hapart hphase hspared hdue
      ((placed_run hx).fits pause hphase)
  | step hphase hcan => exact effort_step_lt hx hphase hcan

/-- As many actions as there is effort lead to rest. -/
theorem next?_settleWithin {actions : List (Action V)} {n : Nat}
    (hn : (run {} actions : System V).effort ≤ n) :
    ((run {} actions).settleWithin n).next? = none := by
  induction n generalizing actions with
  | zero =>
    rw [settleWithin]
    -- With no effort left there is no action, since each takes some away.
    by_contra hnext
    obtain ⟨a, ha⟩ := Option.ne_none_iff_exists'.mp hnext
    exact absurd (effort_act_lt ha) (by omega)
  | succ n ih =>
    rw [settleWithin]
    split
    next a ha =>
      have hlt := effort_act_lt ha
      rw [← run_concat] at hlt ⊢
      exact ih (by omega)
    next hnext => exact hnext

/-- In every run, tasks that are let act come to rest. -/
theorem next?_settle (actions : List (Action V)) :
    (run {} actions : System V).settle.next? = none :=
  next?_settleWithin (effort_le_patience _)

end System

end Deferral
