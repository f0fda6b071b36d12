import Deferral.Proofs.Forwarding
import Deferral.Proofs.System.Inner
import Deferral.Proofs.System.Refusal

/-!
# The flow of one-item streams

A mono and a stream yield one item, which is the outcome of the computation, and then they have
ended. `polls` lists what all polls of a handle are answered with in a run, by its caller or by the
computation that awaits the outcome. As long as the list has no item, the outcome is owed; from the
item on, every poll is answered with the end.

Main statements:
* `Flow.poll`: what a poll is answered with, and how it goes on.
* `flow_run`: in every run, the polls of a one-item stream are answered with nothing for a while,
  then once with the outcome, and then with the end.
-/

namespace Deferral

variable {V : Type}

/-- Whether a handle is that of a one-item stream that was started. -/
def Handle.flows : Handle → Bool
  | .mono .running | .mono .done | .stream .running => true
  | _ => false

/-- The one-item stream was started, so its computation was. -/
theorem Handle.isCold_of_flows {h : Handle} (hflows : h.flows = true) : h.isCold = false := by
  unfold flows at hflows
  split at hflows <;> first | rfl | cases hflows

/-- A one-item stream starts on demand. -/
theorem Handle.isStarted_of_flows {h : Handle} (hflows : h.flows = true) : h.isStarted = true := by
  unfold flows at hflows
  split at hflows <;> first | rfl | cases hflows

/-- A one-item stream has no callback of a caller. -/
theorem Handle.serves_report_of_flows {h : Handle} (hflows : h.flows = true) :
    h.serves (some .report) = false := by
  unfold flows at hflows
  split at hflows <;> first | rfl | cases hflows

/-- The item that is delivered, if there is one. -/
def Delivery.item? : Delivery V → Option (Outcome V)
  | .item o => o
  | _ => none

/-- The items that polls are answered with. -/
def items (polls : List (Option (Delivery V))) : List (Outcome V) :=
  polls.filterMap fun answer => answer.bind Delivery.item?

theorem items_append (polls polls' : List (Option (Delivery V))) :
    items (polls ++ polls') = items polls ++ items polls' :=
  List.filterMap_append

/-- Polls that are answered with no item yield none. -/
theorem items_replicate {answer : Option (Delivery V)} (h : answer.bind Delivery.item? = none)
    (n : Nat) : items (List.replicate n answer) = [] := by
  rw [items, List.filterMap_eq_nil_iff]
  intro answer' hmem
  rw [List.eq_of_mem_replicate hmem, h]

namespace Consumer

variable {c : Consumer V}

/-- The one-item stream has yielded its item. -/
inductive Spent (c : Consumer V) : Prop
  /-- It is a mono, which keeps account of this. -/
  | mono (hattaching : c.attaching = none) (hhandle : c.handle = .mono .done) : Spent c
  /-- It is a stream, the channel of which is empty without a sender. -/
  | stream (hattaching : c.attaching = none) (hhandle : c.handle = .stream .running)
      (hitem : c.channel.item = none) (hsending : c.channel.sending = false)
      (hsendings : c.sendings = [.sent]) : Spent c

theorem Spent.attaching_eq (h : c.Spent) : c.attaching = none := by
  cases h <;> assumption

/-- A one-item stream that has yielded its item has ended. -/
theorem Spent.poll (h : c.Spent) (k : Waker) : c.poll k = (c, some (.item none)) := by
  cases h with
  | mono _ hhandle => simp [Consumer.poll, hhandle]
  | stream _ hhandle hitem hsending =>
    have hreceive : c.channel.receive k = (c.channel, some none) := by
      simp [Channel.receive, hitem, hsending]
    simp only [Consumer.poll, hhandle, hreceive]
    rw [← hhandle]
    rfl

/-- A one-item stream that owes the outcome is one that is polled for it. -/
theorem Owes.isPolled_of_flows {callback? : Option Callback} {o? : Option (Outcome V)}
    (h : c.Owes callback? o?) (hflows : c.handle.flows = true) : c.handle.isPolled = true := by
  have hserves := h.serves
  unfold Handle.flows at hflows
  split at hflows
  next hhandle => rw [hhandle]; rfl
  next hhandle =>
    rw [hhandle] at hserves
    rcases callback? with _ | _ | _ <;> cases hserves
  next hhandle => rw [hhandle]; rfl
  next => cases hflows

/-- A one-item stream delivers its outcome as an item. -/
theorem deliver_of_flows (hflows : c.handle.flows = true) (o : Outcome V) :
    c.handle.deliver o = .item (some o) := by
  unfold Handle.flows at hflows
  split at hflows
  next hhandle => rw [hhandle]; rfl
  next hhandle => rw [hhandle]; rfl
  next hhandle => rw [hhandle]; rfl
  next => cases hflows

/-- A one-item stream that owes the outcome is answered with it once it is published, and then it
has yielded its item. -/
theorem Owes.poll_of_flows {callback? : Option Callback} {o? : Option (Outcome V)}
    (h : c.Owes callback? o?) (hforwards : c.Forwards) (hattaching : c.attaching = none)
    (hflows : c.handle.flows = true) (k : Waker) :
    (c.poll k).2 = o?.map (fun o => .item (some o)) ∧
      (o? = none → (c.poll k).1.Owes callback? none) ∧ (o? ≠ none → (c.poll k).1.Spent) := by
  have hpolled := h.isPolled_of_flows hflows
  obtain ⟨hanswer, hpending⟩ := h.poll hattaching hpolled k
  refine ⟨?_, hpending, fun ho => ?_⟩
  · rw [hanswer]
    cases o? with
    | none => rfl
    | some o => exact congrArg some (deliver_of_flows hflows o)
  · obtain ⟨o, rfl⟩ := Option.ne_none_iff_exists'.mp ho
    have hattaching' : (c.poll k).1.attaching = none :=
      (Consumer.attaching_poll k c).trans hattaching
    by_cases hstream : c.handle = .stream .running
    · -- The item is in the channel, so it was sent and nothing else can be.
      obtain ⟨-, ⟨hnone, -⟩ | ⟨o', ho', hitem⟩⟩ := h.channel_eq hattaching hstream
      · cases hnone
      · have hpoll : (c.poll k).1 = { c with channel := { c.channel with item := none } } := by
          simp [Consumer.poll, hstream, Channel.receive, hitem]
        cases hforwards.sends with
        | before _ hempty => cases hitem.symm.trans hempty
        | after sending hsendings hroom hsending =>
          rw [hpoll]
          refine .stream hattaching hstream rfl hsending ?_
          rcases hroom with rfl | ⟨-, hgone⟩
          · exact hsendings
          · exact absurd hstream (hforwards.gone hgone .running)
    · have hhandle : c.handle = .mono .running := by
        unfold Handle.isPolled at hpolled
        split at hpolled <;> simp_all [Handle.flows]
      refine .mono hattaching' ?_
      obtain rfl := Handle.eq_none_of_looks (by rw [hhandle]; rfl) h.serves
      obtain ⟨-, -, hslot⟩ := h.slot_eq
      have htaken := Cell.poll_ofOption hslot spent k
      unfold Consumer.poll
      rw [hhandle]
      dsimp only
      split
      next => rfl
      next heq =>
        rw [heq] at htaken
        cases htaken

/-- As long as the stream is there, it was sent what was published. -/
theorem Owes.sendings_eq {callback? : Option Callback} {o? : Option (Outcome V)}
    (h : c.Owes callback? o?) (hforwards : c.Forwards) (hattaching : c.attaching = none)
    (hstream : c.handle = .stream .running) : c.sendings = o?.toList.map fun _ => .sent := by
  obtain ⟨-, ⟨rfl, -, -, hunused⟩ | ⟨o, rfl, hitem⟩⟩ := h.channel_eq hattaching hstream
  · cases hforwards.sends with
    | before hsendings => exact hsendings
    | after _ _ _ hsending => cases hunused.sending_eq.symm.trans hsending
  · cases hforwards.sends with
    | before _ hempty => cases hitem.symm.trans hempty
    | after sending hsendings hroom =>
      rcases hroom with rfl | ⟨-, hgone⟩
      · exact hsendings
      · exact absurd hstream (hforwards.gone hgone .running)

/-- A blocking operation goes on, or uses the handle up. -/
theorem flows_fetch_of_waiting {purpose : Waiting} (h : c.handle = .waiting purpose) :
    c.fetch.1.handle.flows = false := by
  cases c.fetches with
  | fetched _ _ hfetch => rw [hfetch]; rfl
  | pending _ _ hfetch | ignored _ hfetch => rw [hfetch, h]; rfl

/-- A blocking operation whose time is up uses the handle up, or hands a future back. -/
theorem flows_expire_of_waiting {purpose : Waiting} (h : c.handle = .waiting purpose) :
    c.expire.1.handle.flows = false := by
  cases c.expires with
  | delivered _ _ hexpire | handedBack _ _ hexpire | givenUp _ _ hexpire => rw [hexpire]; rfl
  | unbounded _ _ _ hexpire => rw [hexpire, h]; rfl

/-- What goes on with a computation, and is no poll, uses a one-item stream up. -/
theorem Continues.flows_eq_false {u : Use} {h h' : Handle} {callback? : Option Callback}
    (hc : Continues u h h' callback?) : h'.flows = false := by
  cases hc with
  | block limit => cases limit <;> rfl
  | join | joinWithin | get | subscribe => rfl

/-- What is asked of a one-item stream that stays one, and is no poll, leaves it alone. -/
theorem begin_of_flows {u : Use} (hcold : c.handle.isCold = false)
    (hflows : (c.begin u).consumer.handle.flows = true) : (c.begin u).consumer = c := by
  cases c.begins u with
  | launched hl => cases hcold.symm.trans hl.isCold
  | continued hc hbegin =>
    rw [hbegin] at hflows
    cases hc.flows_eq_false.symm.trans hflows
  | answered _ hbegin | told _ hbegin =>
    rw [hbegin] at hflows
    cases hflows
  | ignored _ _ hbegin => rw [hbegin]

/-- A handle that is no one-item stream does not become one by a poll. -/
theorem poll_of_not_flows {k : Waker} (hidle : c.handle.flows = false)
    (hflows : (c.poll k).1.handle.flows = true) : (c.poll k).1 = c := by
  cases c.polls k with
  | pending _ _ hpoll | future _ _ hpoll | stream _ _ hpoll =>
    rw [hpoll] at hflows
    cases hidle.symm.trans hflows
  | mono hhandle =>
    rw [hhandle] at hidle
    cases hidle
  | maybe _ _ hpoll =>
    rw [hpoll] at hflows
    cases hflows
  | done _ hpoll | ignored hpoll => rw [hpoll]

/-- To look for what a one-item stream yields is to poll it. -/
theorem look_of_flows (hflows : c.handle.flows = true) (k : Waker) : c.look k = c.poll k := by
  unfold look
  split
  next hhandle =>
    rw [hhandle] at hflows
    cases hflows
  next => rfl

end Consumer

/-- To look for the result of a nested reservation publishes nothing. -/
theorem Reservation.outcomes_lookedAt (k : Waker) (x : Reservation V) :
    (x.lookedAt k).outcomes = x.outcomes := by
  unfold Reservation.lookedAt
  split
  · exact System.outcomes_dropHandle _
  · rfl

/-- A one-item stream that is still there after it was looked at was polled, without an item. -/
theorem Reservation.consumer_lookedAt_of_flows {k : Waker} {x : Reservation V}
    (hflows : x.consumer.handle.flows = true)
    (hflows' : (x.lookedAt k).consumer.handle.flows = true) :
    (x.lookedAt k).consumer = (x.consumer.poll k).1 := by
  unfold Reservation.lookedAt at hflows' ⊢
  rw [Consumer.look_of_flows hflows] at hflows' ⊢
  split
  next d hd =>
    -- With the item there, the handle would have been dropped.
    rw [hd] at hflows'
    dsimp only at hflows'
    rw [Reservation.handle_dropHandle] at hflows'
    cases hflows'
  next => rfl

/-- An operation of the caller after which the handle is that of a one-item stream has polled it, or
has left it alone. -/
theorem Reservation.consumer_operate_of_flows {a : Action V} {x : Reservation V}
    (hcold : x.consumer.handle.isCold = false) (hflows : (x.operate a).consumer.handle.flows = true)
    (hpoll : ∀ q k, a = .poll q k → x.consumer.handle.flows = false) :
    (x.operate a).consumer = x.consumer := by
  -- An operation other than a poll leaves the handle alone, or one behind that does not flow.
  cases a with
  | reshape q shape =>
    show x.consumer.reshape shape = x.consumer
    unfold Consumer.reshape
    split
    next hhandle =>
      rw [hhandle] at hcold
      cases hcold
    next => rfl
  | use q u =>
    have hbegin : (x.operate (.use q u)).consumer = (x.consumer.begin u).consumer := by
      unfold Reservation.operate
      dsimp only
      split <;> rfl
    rw [hbegin] at hflows ⊢
    exact Consumer.begin_of_flows hcold hflows
  | poll q k =>
    exact Consumer.poll_of_not_flows (hpoll q k rfl) hflows
  | fetch q =>
    refine congrArg Prod.fst (Consumer.fetch_of_not_waiting fun purpose hhandle => ?_)
    exact Bool.false_ne_true ((Consumer.flows_fetch_of_waiting hhandle).symm.trans hflows)
  | expire q =>
    refine congrArg Prod.fst (Consumer.expire_of_not_waiting fun purpose hhandle => ?_)
    exact Bool.false_ne_true ((Consumer.flows_expire_of_waiting hhandle).symm.trans hflows)
  | complete q =>
    refine Consumer.complete_of_ne_future fun hhandle => ?_
    replace hflows : x.consumer.complete.handle.flows = true := hflows
    rw [Consumer.complete, hhandle] at hflows
    simp [Handle.flows] at hflows
  | drop q =>
    replace hflows : x.dropHandle.consumer.handle.flows = true := hflows
    rw [Reservation.handle_dropHandle] at hflows
    cases hflows
  | _ => rfl

/-! ## Polls -/

namespace System

variable {w : System V} {a : Action V} {r p : ReservationId} {x x' : Reservation V}

/-- The waker with which the handle of the reservation `r` is polled by an action, if it is: its
caller polls it, or the computation that awaits the outcome looks for that. -/
def poller? (r : ReservationId) (w : System V) : Action V → Option Waker
  | .poll q k => if q = r ∧ (w.reservations[q]?).any isOffered then some k else none
  | .step p =>
    (w.reservations[p]?).bind fun y =>
      match y.phase, y.rest with
      | .active (.engaged c), .await access _ _ _ =>
        if c = r ∧ w.canStep y then some (waker p access) else none
      | _, _ => none
  | _ => none

/-- What is answered when the handle of the reservation `r` is polled during the action `a`, if it
is that of a one-item stream. -/
def polled (r : ReservationId) (w : System V) (a : Action V) : List (Option (Delivery V)) :=
  ((w.reservations[r]?).bind fun x =>
    if x.consumer.handle.flows then (w.poller? r a).map fun k => (x.consumer.poll k).2
    else none).toList

/-- What the polls of the one-item stream of the reservation `r` are answered with during a run. -/
def polls (r : ReservationId) (w : System V) : List (Action V) → List (Option (Delivery V))
  | [] => []
  | a :: actions => w.polled r a ++ polls r (w.act a) actions

theorem polls_append (r : ReservationId) (w : System V) (actions further : List (Action V)) :
    polls r w (actions ++ further) = polls r w actions ++ polls r (w.run actions) further := by
  induction actions generalizing w with
  | nil => rfl
  | cons a actions ih => simp [polls, ih]

theorem polls_singleton (r : ReservationId) (w : System V) (a : Action V) :
    polls r w [a] = w.polled r a :=
  List.append_nil _

/-- Only a one-item stream is polled as one. -/
theorem polled_of_not_flows (hx : w.reservations[r]? = some x)
    (hflows : x.consumer.handle.flows = false) : w.polled r a = [] := by
  simp [polled, hx, hflows]

/-- What polls a one-item stream is answered by that. -/
theorem polled_of_poller? {k : Waker} (hx : w.reservations[r]? = some x)
    (hflows : x.consumer.handle.flows = true) (hk : w.poller? r a = some k) :
    w.polled r a = [(x.consumer.poll k).2] := by
  simp [polled, hx, hflows, hk]

/-- What does not poll a one-item stream is not answered by it. -/
theorem polled_of_poller?_eq_none (hk : w.poller? r a = none) : w.polled r a = [] := by
  unfold polled
  rw [hk]
  rcases w.reservations[r]? with _ | x
  · rfl
  · simp

/-- What is answered is answered by the handle of a one-item stream that is polled. -/
theorem exists_poller?_of_mem_polled {answer : Option (Delivery V)}
    (hx : w.reservations[r]? = some x) (hanswer : answer ∈ w.polled r a) :
    ∃ k, x.consumer.handle.flows = true ∧ w.poller? r a = some k ∧
      answer = (x.consumer.poll k).2 := by
  by_cases hflows : x.consumer.handle.flows = true
  · rcases hk : w.poller? r a with _ | k
    · rw [polled_of_poller?_eq_none hk] at hanswer
      cases hanswer
    · rw [polled_of_poller? hx hflows hk] at hanswer
      exact ⟨k, hflows, rfl, List.mem_singleton.mp hanswer⟩
  · rw [polled_of_not_flows hx (Bool.eq_false_iff.mpr hflows)] at hanswer
    cases hanswer

/-- Who polls a handle is its caller, or a computation that has turned to it. -/
theorem poller?_cases {k : Waker} (hk : w.poller? r a = some k) :
    (∃ x, a = .poll r k ∧ w.reservations[r]? = some x ∧ isOffered x = true) ∨
      ∃ p y, a = .step p ∧ w.reservations[p]? = some y ∧ y.phase = .active (.engaged r) ∧
        w.canStep y = true := by
  unfold poller? at hk
  split at hk
  next q k' =>
    split at hk
    next h =>
      obtain ⟨rfl, hany⟩ := h
      obtain ⟨x, hx, hoffered⟩ := (Option.any_eq_true _ _).mp hany
      obtain rfl := Option.some.inj hk
      exact .inl ⟨x, rfl, hx, hoffered⟩
    next => cases hk
  next p =>
    obtain ⟨y, hy, hmatch⟩ := Option.bind_eq_some_iff.mp hk
    split at hmatch
    next c access s inner rest hphase hrest =>
      split at hmatch
      next h =>
        obtain ⟨rfl, hcan⟩ := h
        exact .inr ⟨p, y, rfl, hy, hphase, hcan⟩
      next => cases hmatch
    next => cases hmatch
  next => cases hk

/-- To poll a handle is to do something with it. -/
theorem handles_of_poller? {k : Waker} (hk : w.poller? r a = some k) : w.Handles r a := by
  obtain ⟨x, rfl, hx, hoffered⟩ | ⟨p, y, rfl, hy, hphase, -⟩ := poller?_cases hk
  · exact .caller rfl hx hoffered
  · exact .step hy hphase

/-- What happens while nothing is done with the handle is no poll. -/
theorem polled_of_not_handles (hby : ¬w.Handles r a) : w.polled r a = [] := by
  refine polled_of_poller?_eq_none ?_
  by_contra hne
  obtain ⟨k, hk⟩ := Option.ne_none_iff_exists'.mp hne
  exact hby (handles_of_poller? hk)

/-- A handle is not polled before it is there. -/
theorem polls_of_absent {actions : List (Action V)}
    (hx : (w.run actions).reservations[r]? = none) : polls r w actions = [] := by
  induction actions generalizing w with
  | nil => rfl
  | cons a actions ih =>
    have hbefore : w.reservations[r]? = none := getElem?_eq_none_of_run hx
    have hpolled : w.polled r a = [] := by simp [polled, hbefore]
    rw [polls, hpolled, ih hx]
    rfl

/-! ## The flow of a one-item stream -/

/-- How the polls of a one-item stream were answered so far, and what becomes of it. -/
inductive Flow (polls : List (Option (Delivery V))) (x : Reservation V) : Prop
  /-- They were not answered, and the outcome is owed. -/
  | waiting (n : Nat) (hpolls : polls = List.replicate n none)
      (howes : x.consumer.handle.flows = true →
        ∃ callback?, x.consumer.Owes callback? x.outcomes.head?) : Flow polls x
  /-- One was answered with the outcome, and all after it with the end. -/
  | yielded (n m : Nat) (o : Outcome V)
      (hpolls : polls = List.replicate n none ++ some (.item (some o)) ::
        List.replicate m (some (.item none)))
      (houtcomes : x.outcomes = [o])
      (hspent : x.consumer.handle.flows = true → x.consumer.Spent) : Flow polls x

namespace Flow

variable {l : List (Option (Delivery V))}

/-- As long as the outcome is owed, there was no item. -/
theorem items_waiting (n : Nat) : items (List.replicate n (none : Option (Delivery V))) = [] :=
  items_replicate rfl n

/-- Once the outcome was yielded, it is the only item. -/
theorem items_yielded (n m : Nat) (o : Outcome V) :
    items (List.replicate n none ++ some (.item (some o)) :: List.replicate m (some (.item none))) =
      [o] := by
  have hends : items (List.replicate m (some (.item none : Delivery V))) = [] :=
    items_replicate rfl m
  rw [items_append, items_waiting, List.nil_append]
  show o :: items (List.replicate m (some (.item none))) = [o]
  rw [hends]

/-- There is one item at most. -/
theorem length_items_le (h : Flow l x) : (items l).length ≤ 1 := by
  cases h with
  | waiting n hpolls =>
    rw [hpolls, items_waiting]
    exact Nat.zero_le 1
  | yielded n m o hpolls =>
    rw [hpolls, items_yielded]
    exact Nat.le_refl 1

/-- The end comes only after the item. -/
theorem length_items_of_ended (h : Flow l x) (hended : some (.item none) ∈ l) :
    (items l).length = 1 := by
  cases h with
  | waiting n hpolls =>
    rw [hpolls] at hended
    cases List.eq_of_mem_replicate hended
  | yielded n m o hpolls =>
    rw [hpolls, items_yielded]
    rfl

/-- Until the item was yielded a poll is answered with the outcome, if it is there, and
then with the end. -/
theorem answer (h : Flow l x) (hforwards : x.consumer.Forwards)
    (hattaching : x.consumer.attaching = none) (hflows : x.consumer.handle.flows = true)
    (k : Waker) :
    (items l = [] → (x.consumer.poll k).2 = x.outcomes.head?.map fun o => .item (some o)) ∧
      (items l ≠ [] → (x.consumer.poll k).2 = some (.item none)) := by
  cases h with
  | waiting n hpolls howes =>
    obtain ⟨callback?, howes⟩ := howes hflows
    refine ⟨fun _ => (howes.poll_of_flows hforwards hattaching hflows k).1, fun hitems => ?_⟩
    rw [hpolls, items_waiting] at hitems
    exact absurd rfl hitems
  | yielded n m o hpolls hone hspent =>
    refine ⟨fun hitems => ?_, fun _ => congrArg Prod.snd ((hspent hflows).poll k)⟩
    rw [hpolls, items_yielded] at hitems
    cases hitems

/-- Without a handle there is nothing more to be polled. -/
theorem stop (h : Flow l x) (houtcomes : x.outcomes <+: x'.outcomes) (hsound : x'.Sound)
    (hflows : x'.consumer.handle.flows = false) : Flow l x' := by
  have hvain {P : Prop} (hflows' : x'.consumer.handle.flows = true) : P := by
    cases hflows.symm.trans hflows'
  cases h with
  | waiting n hpolls => exact .waiting n hpolls hvain
  | yielded n m o hpolls hone =>
    refine .yielded n m o hpolls ?_ hvain
    rw [hone] at houtcomes
    exact (hsound.outcomes_of_mem (houtcomes.subset List.mem_cons_self)).1

/-- What changes neither the outcome nor the handle leaves a one-item stream as it is. -/
theorem keep (h : Flow l x) (houtcomes : x'.outcomes = x.outcomes)
    (hconsumer : x'.consumer = x.consumer) : Flow l x' := by
  cases h with
  | waiting n hpolls howes =>
    exact .waiting n hpolls fun hflows => by
      rw [hconsumer] at hflows ⊢
      rw [houtcomes]
      exact howes hflows
  | yielded n m o hpolls hone hspent =>
    exact .yielded n m o hpolls (houtcomes.trans hone) fun hflows => by
      rw [hconsumer] at hflows ⊢
      exact hspent hflows

/-- A poll is answered with the outcome, if that was published and not yielded before; once it was
yielded, a poll is answered with the end. -/
theorem poll (h : Flow l x) (hsound : x.Sound) (hforwards : x.consumer.Forwards)
    (hattaching : x.consumer.attaching = none) (hflows : x.consumer.handle.flows = true) (k : Waker)
    (houtcomes : x'.outcomes = x.outcomes)
    (hconsumer : x'.consumer.handle.flows = true → x'.consumer = (x.consumer.poll k).1) :
    Flow (l ++ [(x.consumer.poll k).2]) x' := by
  cases h with
  | waiting n hpolls howes =>
    obtain ⟨callback?, howes⟩ := howes hflows
    obtain ⟨hanswer, hpending, hyields⟩ := howes.poll_of_flows hforwards hattaching hflows k
    rw [hanswer, hpolls]
    rcases hone : x.outcomes with _ | ⟨o, os⟩
    · rw [hone] at hpending
      refine .waiting (n + 1) List.replicate_succ'.symm fun hflows' => ⟨callback?, ?_⟩
      rw [hconsumer hflows', houtcomes, hone]
      exact hpending rfl
    · have hmem : o ∈ x.outcomes := hone ▸ List.mem_cons_self
      -- The one outcome is yielded by this poll.
      refine .yielded n 0 o rfl (houtcomes.trans (hsound.outcomes_of_mem hmem).1) fun hflows' => ?_
      rw [hconsumer hflows']
      exact hyields (by simp [hone])
  | yielded n m o hpolls hone hspent =>
    have hpoll := (hspent hflows).poll k
    rw [hpoll, hpolls]
    refine .yielded n (m + 1) o ?_ (houtcomes.trans hone) fun hflows' => ?_
    · rw [List.append_assoc, List.cons_append, ← List.replicate_succ']
    · rw [hconsumer hflows', hpoll]
      exact hspent hflows

end Flow

/-- A one-item stream that its caller can operate on is one of which the launch has returned. -/
theorem attaching_eq_none_of_flows {actions : List (Action V)}
    (hx : (run {} actions).reservations[r]? = some x) (hoffered : isOffered x = true)
    (hflows : x.consumer.handle.flows = true) : x.consumer.attaching = none := by
  refine (attaching_eq_none_of_isSettled (isSettled_of_isOffered hoffered fun hphase => ?_)).2
  have hcold := (aligned_run hx).captured_iff.mp hphase
  cases (Handle.isCold_of_flows hflows).symm.trans hcold

/-- A one-item stream is polled only when its launch has returned. -/
theorem attaching_eq_none_of_poller? {actions : List (Action V)} {k : Waker}
    (hx : (run {} actions).reservations[r]? = some x) (hflows : x.consumer.handle.flows = true)
    (hk : (run {} actions).poller? r a = some k) : x.consumer.attaching = none := by
  obtain ⟨z, rfl, hz, hoffered⟩ | ⟨p, y, rfl, hy, hphase, hcan⟩ := poller?_cases hk
  · obtain rfl := Option.some.inj (hx.symm.trans hz)
    exact attaching_eq_none_of_flows hx hoffered hflows
  · exact attaching_eq_none_of_canStep hx hy hphase hcan

variable {l : List (Option (Delivery V))}

/-- An operation of the caller that polls no one-item stream is not answered by one. -/
theorem polled_of_not_poll (hx : w.reservations[r]? = some x) (ha : a.handle? = some r)
    (h : ¬∃ k, a = .poll r k ∧ x.consumer.handle.flows = true) : w.polled r a = [] := by
  by_cases hflows : x.consumer.handle.flows = true
  · refine polled_of_poller?_eq_none ?_
    cases a with
    | poll q k =>
      obtain rfl := Option.some.inj ha
      exact absurd ⟨k, rfl, hflows⟩ h
    | step => cases ha
    | _ => rfl
  · exact polled_of_not_flows hx (Bool.eq_false_iff.mpr hflows)

/-- A caller that polls a one-item stream is answered as it goes on. -/
theorem flow_poll {actions : List (Action V)} {k : Waker}
    (hx : (run {} actions).reservations[r]? = some x) (h : Flow l x) (hoffered : isOffered x = true)
    (hflows : x.consumer.handle.flows = true) :
    Flow (l ++ (run {} actions).polled r (.poll r k)) (x.operate (.poll r k)) := by
  have hk : (run {} actions).poller? r (.poll r k) = some k := by simp [poller?, hx, hoffered]
  rw [polled_of_poller? hx hflows hk]
  exact h.poll (sound_run hx) (forwards_run hx) (attaching_eq_none_of_flows hx hoffered hflows)
    hflows k rfl fun _ => rfl

/-- An action that turns a handle into that of a one-item stream launches the computation. -/
theorem starts_of_flows {actions : List (Action V)}
    (hx : (run {} actions).reservations[r]? = some x)
    (hphase : x.phase = .captured) (hx' : ((run {} actions).act a).reservations[r]? = some x')
    (hflows : x'.consumer.handle.flows = true) : a.starts r x = true := by
  have hlaunches := launches_act hx hx'
  rw [← run_concat] at hx'
  rw [(aligned_run hx').launches_eq (Handle.isStarted_of_flows hflows),
    (sound_run hx).captured hphase] at hlaunches
  by_contra hnot
  simp [hnot] at hlaunches

/-- From its launch on, a one-item stream owes the outcome. -/
theorem flow_launch {actions : List (Action V)} (hx : (run {} actions).reservations[r]? = some x)
    (h : Flow l x) (ha : a.handle? = some r) (hphase : x.phase = .captured)
    (hx' : ((run {} actions).act a).reservations[r]? = some x')
    (hflows : x'.consumer.handle.flows = true) : Flow l x' := by
  have hstarts := starts_of_flows hx hphase hx' hflows
  cases h with
  | waiting n hpolls =>
    refine .waiting n hpolls fun _ => ?_
    cases a with
    | use q u =>
      obtain rfl := Option.some.inj ha
      obtain ⟨callback?, z, hz, -, -, -, howes, -⟩ := owes_launch hx hstarts
      rw [run_concat] at hz
      obtain rfl := Option.some.inj (hx'.symm.trans hz)
      exact ⟨callback?, howes⟩
    | _ => cases hstarts
  | yielded n m o hpolls hone =>
    -- Nothing is published before the launch.
    have hnone := (sound_run hx).running (by rw [hphase]; rfl)
    cases hone.symm.trans hnone

/-- A caller that does not poll a one-item stream has started it, or gives it up, or
leaves it alone. -/
theorem flow_unpolled {actions : List (Action V)} (hx : (run {} actions).reservations[r]? = some x)
    (h : Flow l x) (ha : a.handle? = some r)
    (hx' : ((run {} actions).act a).reservations[r]? = some x')
    (hkeeps : x.consumer.handle.isCold = false → x'.consumer.handle.flows = true →
      x'.outcomes = x.outcomes ∧ x'.consumer = x.consumer) : Flow l x' := by
  by_cases hflows : x'.consumer.handle.flows = true
  · by_cases hcold : x.consumer.handle.isCold = true
    · exact flow_launch hx h ha ((aligned_run hx).captured_iff.mpr hcold) hx' hflows
    · obtain ⟨houtcomes, hconsumer⟩ := hkeeps (Bool.eq_false_iff.mpr hcold) hflows
      exact h.keep houtcomes hconsumer
  · have hgrows := grows_of_act hx hx'
    exact h.stop hgrows.outcomes_prefix (sound_act hx') (Bool.eq_false_iff.mpr hflows)

/-- A caller that operates on a one-item stream polls it, or does something else with it. -/
theorem flow_operate {actions : List (Action V)} (hx : (run {} actions).reservations[r]? = some x)
    (h : Flow l x) (ha : a.handle? = some r) (hoffered : isOffered x = true)
    (hx' : ((run {} actions).act a).reservations[r]? = some (x.operate a)) :
    Flow (l ++ (run {} actions).polled r a) (x.operate a) := by
  by_cases hpolls : ∃ k, a = .poll r k ∧ x.consumer.handle.flows = true
  · obtain ⟨k, rfl, hflows⟩ := hpolls
    exact flow_poll hx h hoffered hflows
  · rw [polled_of_not_poll hx ha hpolls, List.append_nil]
    refine flow_unpolled hx h ha hx' fun hcold hflows => ⟨Reservation.outcomes_operate a x, ?_⟩
    refine Reservation.consumer_operate_of_flows hcold hflows ?_
    rintro q k rfl
    obtain rfl := Option.some.inj ha
    exact Bool.eq_false_iff.mpr fun hflows => hpolls ⟨k, rfl, hflows⟩

/-- A one-item stream is not run directly. -/
theorem flow_runDirectly {actions : List (Action V)}
    (hx : (run {} actions).reservations[r]? = some x) (h : Flow l x)
    (hx' : ((run {} actions).act (.runDirectly r)).reservations[r]? = some x') : Flow l x' := by
  refine flow_unpolled hx h rfl hx' fun hcold _ => ?_
  have hself : (run {} actions).act (.runDirectly r) = run {} actions := by
    refine runDirectly_eq_self hx fun hhandle => ?_
    rw [hhandle] at hcold
    cases hcold
  rw [hself, hx] at hx'
  obtain rfl := Option.some.inj hx'
  exact ⟨rfl, rfl⟩

/-- A computation that looks for what a one-item stream yields polls it. -/
theorem flow_look {actions : List (Action V)} {y : Reservation V} {access : Access}
    (hx : (run {} actions).reservations[r]? = some x) (h : Flow l x)
    (hy : (run {} actions).reservations[p]? = some y) (hphase : y.phase = .active (.engaged r))
    (hrest : ∃ s inner rest, y.rest = .await access s inner rest)
    (hcan : (run {} actions).canStep y = true)
    (hx' : ((run {} actions).act (.step p)).reservations[r]? = some (x.lookedAt (waker p access))) :
    Flow (l ++ (run {} actions).polled r (.step p)) (x.lookedAt (waker p access)) := by
  by_cases hflows : x.consumer.handle.flows = true
  · obtain ⟨s, inner, rest, hrest⟩ := hrest
    have hk : (run {} actions).poller? r (.step p) = some (waker p access) := by
      simp [poller?, hy, hphase, hrest, hcan]
    rw [polled_of_poller? hx hflows hk]
    exact h.poll (sound_run hx) (forwards_run hx) (attaching_eq_none_of_canStep hx hy hphase hcan)
      hflows _ (Reservation.outcomes_lookedAt _ x) (Reservation.consumer_lookedAt_of_flows hflows)
  · -- The handle is no one-item stream, and no look makes it one.
    rw [polled_of_not_flows hx (Bool.eq_false_iff.mpr hflows), List.append_nil]
    have hgrows := grows_of_act hx hx'
    refine h.stop hgrows.outcomes_prefix (sound_act hx') ?_
    rw [Reservation.handle_lookedAt]
    split
    · rfl
    · exact Bool.eq_false_iff.mpr hflows

/-- While nobody does anything with its handle, a one-item stream goes on as it is. -/
theorem flow_of_not_handles {actions : List (Action V)}
    (hx : (run {} actions).reservations[r]? = some x) (h : Flow l x)
    (hby : ¬(run {} actions).Handles r a)
    (hx' : ((run {} actions).act a).reservations[r]? = some x') : Flow l x' := by
  have hchanges := changes_of_act hx hx'
  have hhandle := Changes.handle_eq hchanges hby
  cases h with
  | waiting n hpolls howes =>
    refine .waiting n hpolls fun hflows => ?_
    rw [hhandle] at hflows
    obtain ⟨callback?, howes⟩ := howes hflows
    refine ⟨callback?, (Changes.owes hchanges hby (sound_run hx) howes).resolve_right ?_⟩
    -- Nobody gives a one-item stream a callback of his and keeps it.
    rintro ⟨rfl, -⟩
    cases (Handle.serves_report_of_flows hflows).symm.trans howes.serves
  | yielded n m o hpolls hone hspent =>
    have hgrows := Changes.grows hchanges
    have hkept := hgrows.outcomes_prefix
    rw [hone] at hkept
    have hone' := ((sound_act hx').outcomes_of_mem (hkept.subset List.mem_cons_self)).1
    refine .yielded n m o hpolls hone' fun hflows => ?_
    have hspent := hspent (hhandle ▸ hflows)
    -- Nothing more is published, so the consumer is as it was.
    obtain ⟨os, houtcomes, hconsumer⟩ :=
      Changes.exists_consumer_eq hchanges hby hspent.attaching_eq
    obtain rfl : os = [] := by
      rw [hone, hone'] at houtcomes
      simpa using houtcomes.symm
    rw [hconsumer]
    exact hspent

/-- Whatever happens, a one-item stream goes on to wait, or yields its item, or has ended. -/
theorem flow_act {actions : List (Action V)} (hx : (run {} actions).reservations[r]? = some x)
    (h : Flow l x) (hx' : ((run {} actions).act a).reservations[r]? = some x') :
    Flow (l ++ (run {} actions).polled r a) x' := by
  by_cases hby : (run {} actions).Handles r a
  · cases hby.handled hx hx' with
    | operate ha _ hoffered => exact flow_operate hx h ha hoffered hx'
    | runDirectly =>
      rw [polled_of_poller?_eq_none (a := .runDirectly r) rfl, List.append_nil]
      exact flow_runDirectly hx h hx'
    | look access hy hphase hrest hcan => exact flow_look hx h hy hphase hrest hcan hx'
    | @stay p y hy hphase hcan =>
      -- A task that cannot take its step polls nothing.
      have hk : (run {} actions).poller? r (.step p) = none := by
        simp only [poller?, hy, hphase, hcan, Option.bind_some]
        split <;> simp
      rw [polled_of_poller?_eq_none hk, List.append_nil]
      exact h
    | @dropTask p =>
      rw [polled_of_poller?_eq_none (a := .dropTask p) rfl, List.append_nil]
      have hgrows := grows_of_act hx hx'
      refine h.stop hgrows.outcomes_prefix (sound_act hx') ?_
      rw [Reservation.handle_dropHandle]
      rfl
  · rw [polled_of_not_handles hby, List.append_nil]
    exact flow_of_not_handles hx h hby hx'

/-- In every run, the polls of a one-item stream are answered with nothing for a while, then once
with the outcome, and then with the end. -/
theorem flow_run {actions : List (Action V)} (hx : (run {} actions).reservations[r]? = some x) :
    Flow (polls r {} actions) x := by
  induction hx using run_induction with
  | start hx => cases hx
  | @new actions a _ _ hnone hnew =>
    have hpolled : (run {} actions).polled r a = [] := by simp [polled, hnone]
    rw [polls_append, polls_singleton, polls_of_absent hnone, hpolled]
    refine .waiting 0 rfl fun hflows => ?_
    cases hnew with
    | reserve => cases hflows
    | await => exact Consumer.owes_access _
  | act hx hy _ ih =>
    rw [polls_append, polls_singleton]
    exact flow_act hy ih hx

end System

end Deferral
