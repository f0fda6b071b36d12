import Deferral.Proofs.Consumer

/-!
# What a consumer owes its caller

Until its caller is handed something, the outcome of a computation is in one place: in the cell, for
those who look there; with the publisher, who is to invoke a callback with it; or in the channel of
a one-item stream. `Owes callback? o? c` says that the consumer `c` has handed out nothing, that
`o?` is the outcome published so far, and to which callback it goes, if to any.

Whatever is asked of such a consumer is answered with that outcome, in the form that belongs to the
handle, or not at all, and then the consumer still owes it.

Main statements:
* `Owes.poll`, `Owes.fetch`, `Owes.expire`, `Owes.complete`: what an operation is answered with.
* `Owes.attach`, `Owes.publish`: what a callback is invoked with.
-/

namespace Deferral

variable {V A : Type}

/-- What the holder of a handle is handed for an outcome. -/
def Handle.deliver (h : Handle) (o : Outcome V) : Delivery V :=
  match h with
  | .waiting purpose => Consumer.Waiting.deliver purpose o
  | .mono _ | .stream _ => .item (some o)
  | .maybe _ => .optional (optional o)
  | _ => .outcome o

/-- Whether a handle is one that is polled for the outcome. -/
def Handle.isPolled : Handle → Bool
  | .future | .mono .running | .maybe .running | .stream .running => true
  | _ => false

/-- Whether a handle is one whose holder looks for the outcome in the cell. -/
def Handle.looks : Handle → Bool
  | .future | .mono .running | .maybe .running | .waiting _ => true
  | _ => false

/-- Whether the outcome for a handle goes to this callback, and without one is looked for in the
cell. -/
def Handle.serves : Handle → Option Callback → Bool
  | .future, none | .mono .running, none | .maybe .running, none | .waiting _, none => true
  | .subscription true, some .report => true
  | .stream .running, some .forward => true
  | .gone, _ => true
  | _, _ => false

namespace Handle

/-- A callback is no use to a handle whose holder looks for the outcome. -/
theorem eq_none_of_looks {h : Handle} {callback? : Option Callback} (hlooks : h.looks = true)
    (hserves : h.serves callback? = true) : callback? = none := by
  cases callback? with
  | none => rfl
  | some callback =>
    unfold looks at hlooks
    split at hlooks <;> first | cases hserves | cases hlooks

/-- A handle whose holder looks for the outcome does without a callback. -/
theorem serves_none_of_looks {h : Handle} (hlooks : h.looks = true) : h.serves none = true := by
  unfold looks at hlooks
  split at hlooks <;> first | rfl | cases hlooks

end Handle

/-- A slot that nothing was taken from. -/
def Slot.ofOption : Option A → Slot A
  | none => .pending
  | some a => .ready a

/-- A channel that nothing was sent through. -/
structure Channel.Unused (c : Channel A) : Prop where
  /-- Nothing is on its way. -/
  item_eq : c.item = none
  /-- The sender has not sent. -/
  sending_eq : c.sending = true
  /-- The receiver is there. -/
  receiving_eq : c.receiving = true

/-- Polling a cell takes out what is there. -/
theorem Cell.poll_ofOption {W : Type} [Wakes W] {c : Cell W A} {a? : Option A}
    (h : c.slot = .ofOption a?) (spent : A) (w : W) : (c.poll spent w).2 = a? := by
  cases a? with
  | none => simp [poll, h, Slot.ofOption]
  | some a => simp [poll, take?, h, Slot.ofOption]

/-- Taking the outcome from a cell finds what is there. -/
theorem Cell.eq_some_of_take? {W : Type} {c c' : Cell W A} {a? : Option A} {spent a : A}
    (hslot : c.slot = .ofOption a?) (h : c.take? spent = (c', some a)) : a? = some a := by
  cases a? with
  | none => simp [take?, hslot, Slot.ofOption] at h
  | some a' =>
    simp only [take?, hslot, Slot.ofOption, Prod.mk.injEq] at h
    exact h.2

/-- In a slot where nothing has arrived there is nothing. -/
theorem Slot.eq_none_of_pending {a? : Option A} (h : Slot.ofOption a? = .pending) : a? = none := by
  cases a? with
  | none => rfl
  | some a => cases h

namespace Consumer

/-- Where the outcome `o?` for a consumer is, which goes to the callback, if there is one. -/
inductive Keeps (callback? : Option Callback) (c : Consumer V) : Option (Outcome V) → Prop
  /-- It is in the cell, or will be, and the callback was not yet registered. -/
  | cell {o? : Option (Outcome V)} (hattaching : c.attaching = callback?)
      (hcallback : c.cell.callback = none) (hslot : c.cell.slot = .ofOption o?)
      (hchannel : c.handle = .stream .running → c.channel.Unused) : Keeps callback? c o?
  /-- It is to come, and the callback was registered. -/
  | callback {callback : Callback} (heq : callback? = some callback) (hattaching : c.attaching = none)
      (hcallback : c.cell.callback = some callback) (hslot : c.cell.slot = .pending)
      (hchannel : c.handle = .stream .running → c.channel.Unused) : Keeps callback? c none
  /-- It was sent through the channel. -/
  | channel {o : Outcome V} (heq : callback? = some .forward) (hattaching : c.attaching = none)
      (hcallback : c.cell.callback = none) (hslot : c.cell.slot = .taken)
      (hitem : c.handle = .stream .running → c.channel.item = some o) : Keeps callback? c (some o)

/-- The caller of the consumer `c` has been handed nothing. The outcome published is `o?`, and it
goes to the callback, if there is one. -/
structure Owes (callback? : Option Callback) (o? : Option (Outcome V)) (c : Consumer V) : Prop where
  /-- The handle is one for this callback. -/
  serves : c.handle.serves callback? = true
  /-- No callback of the caller was invoked. -/
  calls_eq : c.calls = []
  /-- The outcome is where it belongs. -/
  keeps : c.Keeps callback? o?

variable {callback? : Option Callback} {o? : Option (Outcome V)} {c : Consumer V}

/-! ## Beginnings -/

/-- An operation that launches the computation is not answered at once. -/
theorem answer_of_launch {u : Use} (h : (c.begin u).launch = true) : (c.begin u).answer = none := by
  cases c.begins u with
  | launched _ hbegin => rw [hbegin]
  | continued _ hbegin | answered _ hbegin | told _ hbegin | ignored _ _ hbegin =>
    rw [hbegin] at h
    cases h

/-- The callback that is to be registered after a launch is the one for the handle. -/
theorem Launches.serves {u : Use} {h h' : Handle} {callback? : Option Callback}
    (hl : Launches u h h' callback?) : h'.serves callback? = true := by
  cases hl with
  | block limit | monoBlock limit => cases limit <;> rfl
  | spawn | get | subscribe | mono | maybe | stream => rfl

/-- A subscription has the callback of the caller registered. -/
theorem Launches.callback_of_subscribe {h h' : Handle} {callback? : Option Callback}
    (hl : Launches .subscribe h h' callback?) : callback? = some .report := by
  cases hl with
  | subscribe => rfl

/-- A consumer that was just made owes the outcome once an operation launches the computation. -/
theorem owes_of_launch {h : Handle} {u : Use}
    (hlaunch : (begin u ({ handle := h } : Consumer V)).launch = true) :
    ∃ callback?, (begin u ({ handle := h } : Consumer V)).consumer.Owes callback? none ∧
      (u = .subscribe → callback? = some .report) := by
  cases begins u ({ handle := h } : Consumer V) with
  | @launched h' callback? hl hbegin =>
    rw [hbegin]
    refine ⟨callback?, ⟨hl.serves, rfl, .cell Option.or_none rfl rfl fun _ => ⟨rfl, rfl, rfl⟩⟩, ?_⟩
    rintro rfl
    exact hl.callback_of_subscribe
  | continued _ hbegin | answered _ hbegin | told _ hbegin | ignored _ _ hbegin =>
    rw [hbegin] at hlaunch
    cases hlaunch

/-- A consumer that a computation makes owes it the outcome. -/
theorem owes_access (access : Access) :
    ∃ callback?, (access.consumer : Consumer V).Owes callback? none := by
  cases access with
  | stream | next => exact ⟨some .forward, rfl, rfl, .cell rfl rfl rfl fun _ => ⟨rfl, rfl, rfl⟩⟩
  | spawn | mono | maybe | block | join | monoBlock | get =>
    exact ⟨none, rfl, rfl, .cell rfl rfl rfl nofun⟩

/-! ## Operations -/

/-- A handle that is not polled is left alone by a poll. -/
theorem poll_of_not_isPolled (hserves : c.handle.serves callback? = true)
    (hpolled : c.handle.isPolled = false) (w : Waker) : c.poll w = (c, none) := by
  unfold poll
  split <;> first | rfl | simp_all [Handle.isPolled, Handle.serves]

/-- A consumer whose outcome goes to no callback has it in the cell. -/
theorem Owes.slot_eq (h : c.Owes none o?) : c.attaching = none ∧ c.cell.callback = none ∧
    c.cell.slot = .ofOption o? := by
  cases h.keeps with
  | cell hattaching hcallback hslot => exact ⟨hattaching, hcallback, hslot⟩
  | callback heq => cases heq
  | channel heq => cases heq

/-- A consumer whose outcome goes to no callback owes it as long as it is left in the cell. -/
theorem owes_of_slot (hserves : c.handle.serves none = true) (hcalls : c.calls = [])
    (hattaching : c.attaching = none) (hcallback : c.cell.callback = none)
    (hslot : c.cell.slot = .ofOption o?) : c.Owes none o? :=
  ⟨hserves, hcalls, .cell hattaching hcallback hslot fun h => by rw [h] at hserves; cases hserves⟩

/-- A stream's consumer has the item in the channel, or nothing was sent. -/
theorem Owes.channel_eq (h : c.Owes callback? o?) (hattaching : c.attaching = none)
    (hhandle : c.handle = .stream .running) :
    callback? = some .forward ∧
      (o? = none ∧ c.cell.callback = some .forward ∧ c.cell.slot = .pending ∧ c.channel.Unused ∨
        ∃ o, o? = some o ∧ c.channel.item = some o) := by
  have hforward : callback? = some .forward := by
    have hserves := h.serves
    rcases callback? with _ | _ | _ <;> simp [hhandle, Handle.serves] at hserves ⊢
  refine ⟨hforward, ?_⟩
  -- The callback waits in the cell for the outcome, or has sent it already.
  cases h.keeps with
  | cell hattaching' =>
    rw [hattaching, hforward] at hattaching'
    cases hattaching'
  | callback heq _ hcallback hslot hchannel =>
    exact .inl ⟨rfl, hcallback.trans (heq.symm.trans hforward), hslot, hchannel hhandle⟩
  | channel _ _ _ _ hitem => exact .inr ⟨_, rfl, hitem hhandle⟩

/-- A poll is answered with the outcome, if it was published. -/
theorem Owes.poll (h : c.Owes callback? o?) (hattaching : c.attaching = none)
    (hpolled : c.handle.isPolled = true) (w : Waker) :
    (c.poll w).2 = o?.map c.handle.deliver ∧ (o? = none → (c.poll w).1.Owes callback? none) := by
  have hserves := h.serves
  by_cases hstream : c.handle = .stream .running
  · obtain ⟨rfl, ⟨rfl, hcallback, hslot, hitem, hsending, hreceiving⟩ | ⟨o, rfl, hitem⟩⟩ :=
      h.channel_eq hattaching hstream
    · have hpoll : c.poll w = ({ c with channel := { c.channel with waker := some w } }, none) := by
        simp [Consumer.poll, hstream, Channel.receive, hitem, hsending]
      rw [hpoll]
      exact ⟨rfl, fun _ => ⟨hserves, h.calls_eq,
        .callback rfl hattaching hcallback hslot fun _ => ⟨hitem, hsending, hreceiving⟩⟩⟩
    · refine ⟨?_, fun ho => absurd ho (Option.some_ne_none o)⟩
      simp [Consumer.poll, hstream, Channel.receive, hitem, Handle.deliver]
  · -- Every other handle that is polled looks into the cell.
    have hcases : callback? = none ∧
        (c.handle = .future ∨ c.handle = .mono .running ∨ c.handle = .maybe .running) := by
      unfold Handle.isPolled at hpolled
      split at hpolled <;> rcases callback? with _ | _ | _ <;> simp_all [Handle.serves]
    obtain ⟨rfl, hhandle⟩ := hcases
    obtain ⟨-, hcallback, hslot⟩ := h.slot_eq
    cases o? with
    | none =>
      have hcell := Cell.poll_of_pending hslot spent w
      have hpoll : c.poll w =
          ({ c with cell := { c.cell with waker := some (Cell.renew w c.cell.waker) } }, none) := by
        rcases hhandle with hhandle | hhandle | hhandle <;> simp [Consumer.poll, hhandle, hcell]
      rw [hpoll]
      exact ⟨rfl, fun _ => owes_of_slot hserves h.calls_eq hattaching hcallback hslot⟩
    | some o =>
      have hcell := Cell.poll_of_isDone (c := c.cell) (by rw [Cell.isDone, hslot]; rfl) spent w
      refine ⟨?_, fun ho => absurd ho (Option.some_ne_none o)⟩
      rcases hhandle with hhandle | hhandle | hhandle <;>
        simp [Consumer.poll, hhandle, hcell, Cell.take?, hslot, Slot.ofOption, Handle.deliver]

/-- A blocking operation is answered with the outcome, if it was published. -/
theorem Owes.fetch (h : c.Owes callback? o?) {purpose : Waiting}
    (hhandle : c.handle = .waiting purpose) : c.fetch.2 = o?.map c.handle.deliver := by
  obtain rfl := Handle.eq_none_of_looks (by rw [hhandle]; rfl) h.serves
  obtain ⟨-, -, hslot⟩ := h.slot_eq
  cases o? <;> simp [Consumer.fetch, hhandle, Cell.take?, hslot, Slot.ofOption, Handle.deliver]

/-- A blocking operation whose time is up is answered with the outcome, if it was published. -/
theorem Owes.expire (h : c.Owes callback? o?) {purpose : Waiting}
    (hhandle : c.handle = .waiting purpose) :
    (∀ o, o? = some o → c.expire.2 = .delivered (c.handle.deliver o)) ∧
      (o? = none → c.expire.1.Owes callback? none ∧ ∀ d, c.expire.2 ≠ .delivered d) := by
  obtain rfl := Handle.eq_none_of_looks (by rw [hhandle]; rfl) h.serves
  obtain ⟨hattaching, hcallback, hslot⟩ := h.slot_eq
  cases c.expires with
  | delivered hhandle' hcell hexpire =>
    obtain rfl := Cell.eq_some_of_take? hslot hcell
    rw [hexpire, hhandle']
    exact ⟨fun o ho => by rw [Option.some.inj ho]; rfl, nofun⟩
  | handedBack _ hpending hexpire | givenUp _ hpending hexpire =>
    obtain rfl := Slot.eq_none_of_pending (hslot.symm.trans hpending)
    rw [hexpire]
    exact ⟨nofun, fun _ => ⟨owes_of_slot rfl h.calls_eq hattaching hcallback hslot, nofun⟩⟩
  | unbounded _ _ hpending hexpire =>
    obtain rfl := Slot.eq_none_of_pending (hslot.symm.trans (hpending _ hhandle))
    rw [hexpire]
    exact ⟨nofun, fun _ => ⟨h, nofun⟩⟩

/-- A handle that has not started the computation owes nothing. -/
theorem Launches.serves_eq_false {u : Use} {h h' : Handle} {callback? : Option Callback}
    (hl : Launches u h h' callback?) (callback' : Option Callback) :
    h.serves callback' = false := by
  cases hl <;> rcases callback' with _ | _ | _ <;> rfl

namespace Continues

variable {u : Use} {h h' : Handle} {callback? : Option Callback}

/-- What goes on with a computation, and is no poll, is asked of a handle that looks
for the outcome. -/
theorem looks (hc : Continues u h h' callback?) : h.looks = true := by
  cases hc <;> rfl

/-- The callback that is to be registered is the one for the handle. -/
theorem serves (hc : Continues u h h' callback?) : h'.serves callback? = true := by
  cases hc with
  | block limit => cases limit <;> rfl
  | join | joinWithin | get | subscribe => rfl

theorem ne_stream (hc : Continues u h h' callback?) : h' ≠ .stream .running := by
  cases hc with
  | block limit => cases limit <;> nofun
  | join | joinWithin | get | subscribe => nofun

theorem callback_of_subscribe (hc : Continues .subscribe h h' callback?) :
    callback? = some .report := by
  cases hc with
  | subscribe => rfl

end Continues

/-- An operation that begins is not answered, and launches nothing. -/
theorem Owes.begin (h : c.Owes callback? o?) (u : Use) :
    (c.begin u).answer = none ∧ (c.begin u).launch = false ∧
      ∃ callback', (c.begin u).consumer.Owes callback' o? ∧
        (callback? = some .report ∨ u = .subscribe ∧ c.handle = .mono .running →
          callback' = some .report) := by
  have hserves := h.serves
  cases c.begins u with
  | launched hl => cases (hl.serves_eq_false callback?).symm.trans hserves
  | @continued h' callback' hc hbegin =>
    -- The outcome stays in the cell for a caller that goes on to block, or has it reported.
    obtain rfl := Handle.eq_none_of_looks hc.looks hserves
    obtain ⟨hattaching, hcallback, hslot⟩ := h.slot_eq
    have hattached : callback'.or c.attaching = callback' := by rw [hattaching, Option.or_none]
    rw [hbegin]
    refine ⟨rfl, rfl, callback', ⟨hc.serves, h.calls_eq,
      .cell hattached hcallback hslot fun hstream => absurd hstream hc.ne_stream⟩,
      fun hreport => ?_⟩
    rcases hreport with hreport | ⟨rfl, -⟩
    · cases hreport
    · exact hc.callback_of_subscribe
  | answered hhandle =>
    -- A handle that has yielded owes nothing.
    rcases hhandle with hhandle | hhandle <;> rw [hhandle] at hserves <;>
      rcases callback? with _ | _ | _ <;> cases hserves
  | told hhandle =>
    rw [hhandle] at hserves
    rcases callback? with _ | _ | _ <;> cases hserves
  | ignored _ hcontinues hbegin =>
    rw [hbegin]
    refine ⟨rfl, rfl, callback?, h, fun hreport => hreport.elim id ?_⟩
    rintro ⟨rfl, hhandle⟩
    exact absurd (hhandle ▸ .subscribe) (hcontinues (.subscription true) (some .report))

/-- A started handle is not turned into another one. -/
theorem Owes.reshape (h : c.Owes callback? o?) (shape : Shape) : c.reshape shape = c := by
  have hserves := h.serves
  unfold Consumer.reshape
  split
  next hhandle =>
    rw [hhandle] at hserves
    rcases callback? with _ | _ | _ <;> cases hserves
  next => rfl

/-- Dropping the handle leaves the outcome where it belongs. -/
theorem Owes.drop (h : c.Owes callback? o?) : c.drop.Owes callback? o? := by
  have hkept {c' : Consumer V} (hcell : c'.cell = c.cell) (hattaching : c'.attaching = c.attaching)
      (hgone : c'.handle = .gone) : c'.Keeps callback? o? := by
    have hvain {P : Prop} (hhandle : c'.handle = .stream .running) : P := by
      cases hgone.symm.trans hhandle
    rcases h.keeps with ⟨hattached, hcallback, hslot⟩ | ⟨heq, hattached, hcallback, hslot⟩ |
      ⟨heq, hattached, hcallback, hslot⟩
    · exact .cell (hattaching.trans hattached) (hcell ▸ hcallback) (hcell ▸ hslot) hvain
    · exact .callback heq (hattaching.trans hattached) (hcell ▸ hcallback) (hcell ▸ hslot) hvain
    · exact .channel heq (hattaching.trans hattached) (hcell ▸ hcallback) (hcell ▸ hslot) hvain
  unfold Consumer.drop
  split
  · exact ⟨by cases callback? <;> rfl, h.calls_eq, hkept rfl rfl rfl⟩
  · exact ⟨by cases callback? <;> rfl, h.calls_eq, hkept rfl rfl rfl⟩

/-! ## Callbacks -/

/-- As long as there is no outcome, a callback is registered. -/
theorem register_of_pending (hslot : c.cell.slot = .pending) (callback : Callback) :
    register callback c = { c with cell := { c.cell with callback := some callback } } := by
  rw [register, Cell.onComplete_of_pending hslot]

/-- An outcome that is there is taken out, and the callback is invoked with it. -/
theorem register_of_ready {o : Outcome V} (hslot : c.cell.slot = .ready o) (callback : Callback) :
    register callback c = invoke callback o { c with cell := { c.cell with slot := .taken } } := by
  rw [register, Cell.onComplete_of_isDone (by rw [Cell.isDone, hslot]; rfl), Cell.take?, hslot]

/-- A callback that is invoked reports to the caller, or sends into the channel. -/
theorem owes_invoke (hserves : c.handle.serves callback? = true) (hcalls : c.calls = [])
    (hattaching : c.attaching = none) (hcallback : c.cell.callback = none)
    (hslot : c.cell.slot = .taken) (hchannel : c.handle = .stream .running → c.channel.Unused)
    {callback : Callback} (heq : callback? = some callback) (o : Outcome V) :
    (invoke callback o c).Owes callback? (some o) ∨
      callback? = some .report ∧ (invoke callback o c).calls = [o] := by
  cases callback with
  | report => exact .inr ⟨heq, by rw [invoke, hcalls]; rfl⟩
  | forward =>
    refine .inl ⟨hserves, hcalls, .channel heq hattaching hcallback hslot fun hhandle => ?_⟩
    obtain ⟨hitem, -, hreceiving⟩ := hchannel hhandle
    simp [invoke, wake, Channel.sendLast, Channel.trySend, hitem, hreceiving]

/-- A future that is given a callback goes on owing the outcome, or has invoked the callback. -/
theorem Owes.complete (h : c.Owes callback? o?) (hhandle : c.handle = .future) :
    (o? = none → c.complete.Owes (some .report) none) ∧
      ∀ o, o? = some o → c.complete.calls = [o] := by
  obtain rfl := Handle.eq_none_of_looks (by rw [hhandle]; rfl) h.serves
  obtain ⟨hattaching, hcallback, hslot⟩ := h.slot_eq
  have hcomplete : c.complete = register .report { c with handle := .gone } := by
    rw [Consumer.complete, hhandle]
  rw [hcomplete]
  refine ⟨fun ho => ?_, fun o ho => ?_⟩
  · subst ho
    rw [register_of_pending (c := { c with handle := .gone }) hslot]
    exact ⟨rfl, h.calls_eq, .callback rfl hattaching rfl hslot nofun⟩
  · subst ho
    rw [register_of_ready (c := { c with handle := .gone }) hslot, invoke, h.calls_eq]
    rfl

/-- Registering the callback that waited for the launch leaves the outcome owed, or the callback was
invoked with it. -/
theorem Owes.attach (h : c.Owes callback? o?) : c.attach.Owes callback? o? ∨
    ∃ o, o? = some o ∧ callback? = some .report ∧ c.attach.calls = [o] := by
  cases hattaching : c.attaching with
  | none =>
    have hattach : c.attach = c := by rw [Consumer.attach, hattaching]
    rw [hattach]
    exact .inl h
  | some callback =>
    have hattach : c.attach = register callback { c with attaching := none } := by
      rw [Consumer.attach, hattaching]
    rw [hattach]
    rcases h.keeps with ⟨hattached, hcallback, hslot, hchannel⟩ | ⟨-, hattached⟩ | ⟨-, hattached⟩
    · have heq : callback? = some callback := hattached.symm.trans hattaching
      cases o? with
      | none =>
        rw [register_of_pending (c := { c with attaching := none }) hslot]
        exact .inl ⟨h.serves, h.calls_eq, .callback heq rfl rfl hslot hchannel⟩
      | some o =>
        rw [register_of_ready (c := { c with attaching := none }) hslot]
        exact (owes_invoke
          (c := { c with attaching := none, cell := { c.cell with slot := .taken } })
          h.serves h.calls_eq rfl hcallback rfl hchannel heq o).imp_right
          fun hcalled => ⟨o, rfl, hcalled⟩
    · cases hattached.symm.trans hattaching
    · cases hattached.symm.trans hattaching

/-- An outcome that was published is not owed to a callback of the caller that was registered. -/
theorem Owes.callback?_ne {o : Outcome V} (h : c.Owes callback? (some o))
    (hattaching : c.attaching = none) : callback? ≠ some .report := by
  rintro rfl
  cases h.keeps with
  | cell hattached => cases hattached.symm.trans hattaching
  | channel heq => cases heq

/-- Once the outcome is published it is owed, or the callback was invoked with it. -/
theorem Owes.publish (h : c.Owes callback? none) (o : Outcome V) :
    (c.publish o).Owes callback? (some o) ∨
      callback? = some .report ∧ (c.publish o).calls = [o] := by
  rcases h.keeps with ⟨hattaching, hcallback, -, hchannel⟩ |
    ⟨heq, hattaching, hcallback, -, hchannel⟩
  · rw [Consumer.publish, Cell.publish_of_no_callback hcallback]
    exact .inl ⟨h.serves, h.calls_eq, .cell hattaching hcallback rfl hchannel⟩
  · rw [Consumer.publish, Cell.publish_of_callback hcallback]
    exact owes_invoke (c := { c with cell := { c.cell with slot := .taken, callback := none } })
      h.serves h.calls_eq hattaching rfl rfl hchannel heq o

end Consumer

end Deferral
